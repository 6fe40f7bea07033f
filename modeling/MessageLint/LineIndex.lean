-- SUMMARY: From byte offsets to lines and columns.
import MessageLint.Span

/-!
# Lines and columns

Reports give a line and a column, both counted from one, the column in bytes. A `LineIndex` holds
the offsets of all line ends of a text; a line end belongs to the line that it ends. Texts with a
carriage return are refused.
-/

namespace MessageLint

structure Position where
  line : Nat
  column : Nat
  deriving DecidableEq, Repr, Inhabited

/-- The first carriage return of a text. -/
structure CarriageReturn where
  line : Nat
  offset : Nat
  deriving DecidableEq, Repr, Inhabited

def CarriageReturn.message (e : CarriageReturn) : String :=
  "carriage return found at line " ++ toString e.line ++ " (byte " ++ toString e.offset ++
    "); only LF line endings are supported"

/-- The byte offsets at which `ch` stands in a text that begins at `offset`, ascending. -/
def offsetsOf (ch : Char) : Nat → List Char → List Nat
  | _, [] => []
  | offset, c :: cs =>
    let next := offsetsOf ch (offset + c.utf8Size) cs
    if c = ch then offset :: next else next

/-- The offsets of the line ends of a text, ascending. -/
structure LineIndex where
  lineEnds : List Nat
  deriving DecidableEq, Repr, Inhabited

namespace LineIndex

/-- The line ends before `offset`. -/
def before (index : LineIndex) (offset : Nat) : List Nat := index.lineEnds.takeWhile (· < offset)

def position (index : LineIndex) (offset : Nat) : Position :=
  let before := index.before offset
  match before.getLast? with
  | some lineEnd => ⟨before.length + 1, offset - lineEnd⟩
  | none => ⟨1, offset + 1⟩

/-- The number of lines; what stands behind the last line end counts as one. -/
def lineCount (index : LineIndex) : Nat := index.lineEnds.length + 1

def ofText (text : List Char) : Except CarriageReturn LineIndex :=
  let index : LineIndex := ⟨offsetsOf '\n' 0 text⟩
  match (offsetsOf '\r' 0 text).head? with
  | some offset => .error ⟨(index.position offset).line, offset⟩
  | none => .ok index

end LineIndex

end MessageLint
