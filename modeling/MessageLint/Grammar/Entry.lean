-- SUMMARY: Messages, terms and comments, and the whole of a file.
import MessageLint.Grammar.Expression

/-!
# Entries

A file is a list of entries between blank lines. It is read in two steps: first the entries, each
with the note whether the next one follows without a blank line (`Block`), then comments are
attached to the messages and terms that they touch (`Block.attach`).
-/

namespace MessageLint

-- ---------------------------------------------------------------------------
-- Comments
-- ---------------------------------------------------------------------------

/-- The level of a comment whose line starts like `line`; a third marker is the last that counts. -/
def CommentLevel.ofLine (line : List Char) : CommentLevel :=
  if ['#', '#', '#'].isPrefixOf line then .resource
  else if ['#', '#'].isPrefixOf line then .group
  else .note

/-- Whether the line after this one, whose end the cursor stands at, goes on with the comment: it
has the markers of the level and then a space or a line end. -/
def Cursor.continuesComment (level : CommentLevel) (c : Cursor) : Bool :=
  match c.rest with
  | '\n' :: line =>
    (List.replicate level.markers '#').isPrefixOf line &&
      match line.drop level.markers with
      | ch :: _ => ch == ' ' || ch == '\n'
      | [] => false
  | _ => false

namespace Parser

/-- At the markers of a comment line: what stands behind them. -/
def commentLine (level : CommentLevel) : Parser String := do
  skip level.markers
  match ← peek with
  | none | some '\n' => return ""
  | some ' ' =>
    skip 1
    takeWhile fun ch => ch ≠ '\n'
  | some _ => fail (.expectedToken ' ')

/-- A further line of a comment, from the end of the line before it. -/
def nextCommentLine (level : CommentLevel) : Parser String := do
  skip 1
  commentLine level

def comment : Parser Entry := do
  let start ← place
  let level := CommentLevel.ofLine start.rest
  let first ← commentLine level
  let lines ← gather (fun _ c => c.continuesComment level) (fun _ => nextCommentLine level) [first]
  return .comment level ⟨"\n".intercalate lines, ← spanFrom start⟩

-- ---------------------------------------------------------------------------
-- Messages and terms
-- ---------------------------------------------------------------------------

/-- The `=` behind a name. -/
def equalsSign : Parser Unit := do
  skipSpaces
  token '='

def attributeLine : Parser Attribute := do
  skipBlank
  let start ← place
  skip 1
  let id ← identifier
  equalsSign
  let value ← requiredPattern placeable
  return ⟨id, value, ← spanFrom start⟩

def attributes : Parser (List Attribute) :=
  gather (fun _ c => c.skipBlank.peek = some '.') (fun _ => attributeLine) []

def message : Parser Entry := do
  let start ← place
  let id ← identifier
  equalsSign
  let value ← pattern? placeable
  let attrs ← attributes
  let span ← spanFrom start
  if value.isNone && attrs.isEmpty then
    failAt span (.expectedMessageField id.name)
  else
    return .message ⟨id, value, attrs, none, span⟩

def term : Parser Entry := do
  let start ← place
  skip 1
  let id ← identifier
  equalsSign
  match ← pattern? placeable with
  | none => failAt (← spanFrom start) (.expectedTermField id.name)
  | some value =>
    let attrs ← attributes
    return .term ⟨id, value, attrs, none, ← spanFrom start⟩

def entry : Parser Entry := do
  match ← peek with
  | some '#' => comment
  | some '-' => term
  | some ch => if ch.isAlpha then message else fail .expectedEntry
  | none => fail .expectedEntry

end Parser

-- ---------------------------------------------------------------------------
-- Files
-- ---------------------------------------------------------------------------

/-- An entry, and whether another one stands on the very next line. -/
structure Block where
  entry : Entry
  touchesNext : Bool

/-- Gives `c` to a message or term, whose span then starts at the comment. -/
def Entry.withComment (c : Comment) : Entry → Option Entry
  | .message m => some (.message { m with comment := some c, span := ⟨c.span.start, m.span.stop⟩ })
  | .term t => some (.term { t with comment := some c, span := ⟨c.span.start, t.span.stop⟩ })
  | .comment .. => none

namespace Block

/-- A note that touches a message or term belongs to it; all other comments stay entries. A note that
touches nothing more in its list would stay one too, but the last block of a source never says that it
touches a next one. -/
def attach : List Block → List Entry
  | [] => []
  | ⟨.comment .note c, true⟩ :: next :: rest =>
    match next.entry.withComment c with
    | some e => e :: attach rest
    | none => .comment .note c :: attach (next :: rest)
  | b :: rest => b.entry :: attach rest

end Block

namespace Parser

/-- An entry with the blank lines behind it. -/
def block : Parser Block := do
  let e ← entry
  lineEnd
  let blankLines ← skipBlankLines
  return ⟨e, blankLines = 0 && !(← place).atEnd⟩

def blocks : Parser (List Block) := do
  let _ ← skipBlankLines
  gather (fun _ c => !c.atEnd) (fun _ => block) []

end Parser

/-- Reads a whole file, or finds the first fault in it. -/
def Resource.parse (source : String) : Except SyntaxError Resource :=
  match Parser.blocks (.ofString source) with
  | .ok (blocks, c) => .ok ⟨Block.attach blocks, ⟨0, c.offset⟩⟩
  | .error e => .error e

end MessageLint
