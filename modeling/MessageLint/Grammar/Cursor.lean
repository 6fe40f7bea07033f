-- SUMMARY: A place in a source: the characters still unread and the bytes before them.
import MessageLint.Span

/-!
# Cursors

The grammar is read from left to right. A `Cursor` holds what is still unread and how many bytes
lie before it; every movement goes forward over whole characters, so offsets taken from cursors
always fall between characters. Blanks are spaces and line ends, nothing else: a tab or a carriage
return is an ordinary character.
-/

namespace MessageLint

structure Cursor where
  rest : List Char
  offset : Nat
  deriving DecidableEq, Repr, Inhabited

namespace Cursor

/-- The start of a source. -/
def ofString (source : String) : Cursor := ⟨source.toList, 0⟩

def peek (c : Cursor) : Option Char := c.rest.head?

def atEnd (c : Cursor) : Bool := c.rest.isEmpty

/-- One character forward; at the end there is nothing to move over. -/
def next (c : Cursor) : Cursor :=
  match c.rest with
  | [] => c
  | ch :: r => ⟨r, c.offset + ch.utf8Size⟩

def advance : Nat → Cursor → Cursor
  | 0, c => c
  | n + 1, c => c.next.advance n

/-- Forward over the longest run of characters that satisfy `p`. -/
def skipWhile (p : Char → Bool) (c : Cursor) : Cursor :=
  ⟨c.rest.dropWhile p, c.offset + byteLength (c.rest.takeWhile p)⟩

/-- The span from one cursor to a later one. -/
def spanTo (c d : Cursor) : Span := ⟨c.offset, d.offset⟩

/-- The span of the character at the cursor, counted as one byte; empty at the end. -/
def here (c : Cursor) : Span := ⟨c.offset, if c.atEnd then c.offset else c.offset + 1⟩

-- ---------------------------------------------------------------------------
-- Blanks
-- ---------------------------------------------------------------------------

def isSpace (ch : Char) : Bool := ch == ' '

def isBlank (ch : Char) : Bool := ch == ' ' || ch == '\n'

def isLineEnd (ch : Char) : Bool := ch == '\n'

def skipSpaces (c : Cursor) : Cursor := c.skipWhile isSpace

def skipBlank (c : Cursor) : Cursor := c.skipWhile isBlank

/-- Reads on from a line that has held only spaces so far. `lineStart` is the start of that line and
`lines` the number of blank lines before it. -/
def skipBlankLinesFrom (lineStart : Cursor) (lines : Nat) : List Char → Nat → Nat × Cursor
  | [], offset => (lines, ⟨[], offset⟩)
  | ' ' :: r, offset => skipBlankLinesFrom lineStart lines r (offset + 1)
  | '\n' :: r, offset => skipBlankLinesFrom ⟨r, offset + 1⟩ (lines + 1) r (offset + 1)
  | _, _ => (lines, lineStart)

/-- Skips whole blank lines and counts them. The answer stands at the start of a line that holds
something else, or where `c` stands if the rest of its line does; blanks at the end of the source
are skipped too. -/
def skipBlankLines (c : Cursor) : Nat × Cursor :=
  skipBlankLinesFrom c 0 c.rest c.offset

/-- Whether the line that starts at the cursor can continue a pattern: a placeable may stand in any
column, text must be indented and must not start like a brace, an attribute or a variant. -/
def continuesPattern (c : Cursor) : Bool :=
  let indented := c.skipSpaces
  match indented.peek with
  | none => false
  | some '{' => true
  | some ch => c.offset < indented.offset && !(['\n', '}', '.', '[', '*'].contains ch)

end Cursor

end MessageLint
