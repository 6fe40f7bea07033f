-- SUMMARY: Patterns: text over several lines, with the common indentation removed.
import MessageLint.Grammar.Parser
import MessageLint.Resource

/-!
# Patterns

A pattern starts on the line of its `=` or `]`, or on an indented line below. It is first read as
a list of pieces that keeps each indentation apart (`Piece`). `Piece.elements` then takes the common
indentation out, joins neighbouring text, and trims blanks off the end, so the value does not depend
on how far the whole block is indented.
-/

namespace MessageLint

-- ---------------------------------------------------------------------------
-- Pieces
-- ---------------------------------------------------------------------------

/-- A part of a pattern as it stands in the source. -/
inductive Piece where
  /-- Line ends and the spaces that open the line after them; a block pattern opens with one that
  has no line end. -/
  | indent (newlines spaces : Nat) (span : Span)
  | text (t : TextElement)
  | placeable (p : Placeable)

namespace Piece

/-- The spaces of an indentation. -/
def spaces? : Piece → Option Nat
  | .indent _ spaces _ => some spaces
  | _ => none

/-- The least indentation of all lines; without any there is nothing to remove. -/
def commonIndent (pieces : List Piece) : Nat := (pieces.filterMap spaces?).min?.getD 0

/-- The piece with `common` spaces of indentation removed; what becomes empty is dropped. -/
def dedent (common : Nat) : Piece → Option Element
  | .indent newlines spaces span =>
    if newlines = 0 ∧ spaces - common = 0 then
      none
    else
      let value := List.replicate newlines '\n' ++ List.replicate (spaces - common) ' '
      some (.text ⟨String.ofList value, span⟩)
  | .text t => some (.text t)
  | .placeable p => some (.placeable p)

end Piece

-- ---------------------------------------------------------------------------
-- Elements
-- ---------------------------------------------------------------------------

namespace Element

/-- Puts an element in front of others, joining text to text. -/
def joinOnto : Element → List Element → List Element
  | .text a, .text b :: es => .text ⟨a.value ++ b.value, a.span.extend b.span⟩ :: es
  | e, es => e :: es

/-- Joins all neighbouring text. -/
def join (es : List Element) : List Element := es.foldr joinOnto []

/-- A text without the spaces and line ends at its end. -/
def trimEnd (value : String) : String :=
  String.ofList (value.toList.reverse.dropWhile Cursor.isBlank).reverse

/-- Trims the last element if it is text, and drops it if nothing is left of it. -/
def trimLast : List Element → List Element
  | [] => []
  | [.text t] =>
    let value := trimEnd t.value
    if value.isEmpty then [] else [.text ⟨value, t.span⟩]
  | e :: es => e :: trimLast es

end Element

/-- The elements that pieces stand for. -/
def Piece.elements (pieces : List Piece) : List Element :=
  Element.trimLast (Element.join (pieces.filterMap (dedent (commonIndent pieces))))

-- ---------------------------------------------------------------------------
-- Reading
-- ---------------------------------------------------------------------------

/-- Whether a pattern that has been read up to here goes on. -/
def Cursor.continuesPiece (c : Cursor) : Bool :=
  match c.peek with
  | none => false
  | some '\n' => c.skipBlankLines.2.continuesPattern
  | some _ => true

def isPatternText (ch : Char) : Bool := ch ≠ '\x7b' && ch ≠ '\x7d' && ch ≠ '\n'

namespace Parser

/-- Skips spaces; the answer is their number. -/
def countSpaces : Parser Nat := do
  let spaces ← takeWhile Cursor.isSpace
  return spaces.length

def piece (placeable : Parser Placeable) : Parser Piece := do
  let start ← place
  match start.peek with
  | some '\n' =>
    let newlines ← skipBlankLines
    let spaces ← countSpaces
    return .indent newlines spaces (← spanFrom start)
  | some '\x7b' => return .placeable (← placeable)
  | some '\x7d' => fail .unbalancedClosingBrace
  | _ =>
    let value ← takeWhile isPatternText
    return .text ⟨value, ← spanFrom start⟩

/-- The indentation that opens a block pattern. -/
def blockIndent : Parser Piece := do
  let start ← place
  let spaces ← countSpaces
  return .indent 0 spaces (← spanFrom start)

/-- The pieces of a pattern. A block pattern is read from the start of its first line, which gives
the indentation of that line. -/
def pieces (placeable : Parser Placeable) (block : Bool) : Parser (List Piece) := do
  let opening ← if block then do pure [← blockIndent] else pure []
  gather (fun _ c => c.continuesPiece) (fun _ => piece placeable) opening

def pattern (placeable : Parser Placeable) (block : Bool) : Parser Pattern := do
  let start ← place
  let pieces ← pieces placeable block
  return ⟨Piece.elements pieces, ← spanFrom start⟩

/-- A pattern on this line or on the indented lines below, if there is one; nothing is read
otherwise. -/
def pattern? (placeable : Parser Placeable) : Parser (Option Pattern) := do
  let start ← place
  let value := start.skipSpaces
  if value.atEnd || value.peek = some '\n' then
    let line := value.skipBlankLines.2
    if line.continuesPattern then
      moveTo line
      return some (← pattern placeable true)
    else
      return none
  else
    moveTo value
    return some (← pattern placeable false)

/-- A pattern that must be there. -/
def requiredPattern (placeable : Parser Placeable) : Parser Pattern := do
  match ← pattern? placeable with
  | some p => return p
  | none => fail .missingValue

end Parser

end MessageLint
