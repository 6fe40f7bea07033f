-- SUMMARY: A file that is being linted: where it is, what it holds, and its lines.
import MessageLint.Path
import MessageLint.Report

/-!
# Sources

A `Source` is the text of one file together with the path it was found at and the name that reports
give it, which is the path as seen from the checked folder.
-/

namespace MessageLint

structure Source where
  path : String
  file : String
  text : List Char
  lines : LineIndex

namespace Source

/-- A source, unless its text holds a carriage return. -/
def ofText (path root : String) (text : List Char) : Except CarriageReturn Source :=
  (LineIndex.ofText text).map fun lines => ⟨path, Path.relativeTo path root, text, lines⟩

/-- The place of a span, reported at its start. -/
def location (s : Source) (span : Span) : Location :=
  let position := s.lines.position span.start
  ⟨s.file, position.line, position.column, span.start, span.length⟩

/-- The number of line ends directly behind an offset. -/
def lineEndsAfter (s : Source) (offset : Nat) : Nat :=
  match splitBytes? offset s.text with
  | some (_, after) => (after.takeWhile (· = '\n')).length
  | none => 0

/-- The number of line ends directly before an offset. -/
def lineEndsBefore (s : Source) (offset : Nat) : Nat :=
  match splitBytes? offset s.text with
  | some (before, _) => (before.reverse.takeWhile (· = '\n')).length
  | none => 0

end Source

end MessageLint
