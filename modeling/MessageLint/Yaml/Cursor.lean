-- SUMMARY: A place in a YAML text, and the blanks and line ends around words.
import MessageLint.Span

/-!
# Cursors

YAML counts columns from the start of a line, and nesting hangs on them. A `Cursor` is the text that
is left together with the place where it begins. A gap between two words of a scalar is blanks on
one line (`Gap.blanks`), which stay as they are, or line ends with blanks around them (`Gap.lines`),
which are folded: one line end becomes a space, and of several all but the first remain.
-/

namespace MessageLint.Yaml

-- ---------------------------------------------------------------------------
-- Characters
-- ---------------------------------------------------------------------------

def isBlank (c : Char) : Bool := c = ' ' || c = '\t'

def isLineEnd (c : Char) : Bool :=
  c = '\n' || c = '\r' || c = '\x85' || c = '\u2028' || c = '\u2029'

/-- The characters that a text may hold. -/
def isAllowed (c : Char) : Bool :=
  let n := c.toNat
  n = 0x09 || n = 0x0a || n = 0x0d || (0x20 ≤ n && n ≤ 0x7e) || n = 0x85 ||
    (0xa0 ≤ n && n ≤ 0xfffd) || 0x10000 ≤ n

/-- Whether no word goes on here: a blank, a line end, or the end of the text. -/
def atGap : List Char → Bool
  | [] => true
  | c :: _ => isBlank c || isLineEnd c

/-- Whether the line ends here. -/
def atLineEnd : List Char → Bool
  | [] => true
  | c :: _ => isLineEnd c

-- ---------------------------------------------------------------------------
-- Cursors
-- ---------------------------------------------------------------------------

structure Cursor where
  rest : List Char
  /-- The number of bytes before `rest`. -/
  index : Nat
  line : Nat
  column : Nat
  deriving DecidableEq, Repr, Inhabited

namespace Cursor

def ofText (text : List Char) : Cursor := ⟨text, 0, 0, 0⟩

/-- Moves over `n` characters of the line. -/
def advance (c : Cursor) (n : Nat) : Cursor :=
  ⟨c.rest.drop n, c.index + byteLength (c.rest.take n), c.line, c.column + n⟩

/-- Moves over the characters of the line that satisfy `p`. -/
def skipWhile (p : Char → Bool) (c : Cursor) : Cursor := c.advance (c.rest.takeWhile p).length

def skipBlanks (c : Cursor) : Cursor := c.skipWhile isBlank

/-- Moves over a comment, if one begins here, up to the end of its line. -/
def skipComment (c : Cursor) : Cursor :=
  match c.rest with
  | '#' :: _ => c.skipWhile (!isLineEnd ·)
  | _ => c

/-- Moves over a line end, if there is one here, and says what it reads as: a line or paragraph
separator as itself, all others as a line feed. -/
def lineEnd? (c : Cursor) : Option (Char × Cursor) :=
  match c.rest with
  | '\r' :: '\n' :: r => some ('\n', ⟨r, c.index + 2, c.line + 1, 0⟩)
  | e :: r =>
    if isLineEnd e then
      let read := if e = '\u2028' || e = '\u2029' then e else '\n'
      some (read, ⟨r, c.index + e.utf8Size, c.line + 1, 0⟩)
    else
      none
  | [] => none

/-- Whether a line begins here with the three marks that open or close a document. -/
def atDocumentMark (c : Cursor) : Bool :=
  c.column = 0 &&
    match c.rest with
    | '-' :: '-' :: '-' :: r => atGap r
    | '.' :: '.' :: '.' :: r => atGap r
    | _ => false

theorem length_advance (c : Cursor) (n : Nat) :
    (c.advance n).rest.length = c.rest.length - n := by
  simp [advance]

theorem lineEnd?_length {c next : Cursor} {e : Char} (h : c.lineEnd? = some (e, next)) :
    next.rest.length < c.rest.length := by
  unfold lineEnd? at h
  split at h
  · next heq =>
    cases h
    simp only [heq, List.length_cons]
    omega
  · next heq =>
    split at h
    · cases h
      simp [heq]
    · simp at h
  · simp at h

end Cursor

-- ---------------------------------------------------------------------------
-- Gaps
-- ---------------------------------------------------------------------------

/-- What stands between two words of a scalar. -/
inductive Gap where
  | blanks (text : List Char)
  /-- Line ends; there is no first one where it was escaped. -/
  | lines (first : Option Char) (more : List Char)
  deriving DecidableEq, Repr, Inhabited

namespace Gap

/-- What a gap leaves in the scalar. -/
def text : Gap → List Char
  | blanks text => text
  | lines (some '\n') [] => [' ']
  | lines (some '\n') more => more
  | lines first more => first.toList ++ more

def hasLineEnd : Gap → Bool
  | blanks _ => false
  | lines _ _ => true

end Gap

namespace Cursor

/-- Moves over line ends and blanks. To the left of column `indent` a tab is refused. -/
def moreLineEnds (indent : Nat) (c : Cursor) : Option (List Char × Cursor) :=
  let blanks := c.rest.takeWhile isBlank
  if (blanks.take (indent - c.column)).contains '\t' then
    none
  else
    match h : (c.advance blanks.length).lineEnd? with
    | some (e, next) =>
      have := lineEnd?_length h
      have := length_advance c blanks.length
      (moreLineEnds indent next).map fun (es, after) => (e :: es, after)
    | none => some ([], c.advance blanks.length)
termination_by c.rest.length

/-- Moves over a gap. -/
def gap (indent : Nat) (c : Cursor) : Option (Gap × Cursor) :=
  let blanks := c.rest.takeWhile isBlank
  let c := c.advance blanks.length
  match c.lineEnd? with
  | some (e, next) => (next.moreLineEnds indent).map fun (es, after) => (.lines (some e) es, after)
  | none => some (.blanks blanks, c)

end Cursor

end MessageLint.Yaml
