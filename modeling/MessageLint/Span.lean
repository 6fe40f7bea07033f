-- SUMMARY: Half-open ranges of byte offsets, and the text they cut out of a source.

/-!
# Spans

Every node, error and finding points into its source by a `Span`: two byte offsets, the first
inclusive and the second exclusive. Offsets count UTF-8 bytes, so cutting a span out of a text has
an answer only where both ends fall between characters (`Span.slice?`).
-/

namespace MessageLint

-- ---------------------------------------------------------------------------
-- Byte lengths of character lists
-- ---------------------------------------------------------------------------

/-- The number of UTF-8 bytes of a list of characters. -/
def byteLength : List Char → Nat
  | [] => 0
  | c :: cs => c.utf8Size + byteLength cs

@[simp] theorem byteLength_nil : byteLength [] = 0 := rfl

@[simp] theorem byteLength_cons (c : Char) (cs : List Char) :
    byteLength (c :: cs) = c.utf8Size + byteLength cs := rfl

@[simp] theorem byteLength_append (a b : List Char) :
    byteLength (a ++ b) = byteLength a + byteLength b := by
  induction a with
  | nil => simp
  | cons c cs ih => simp [ih, Nat.add_assoc]

/-- Moves characters of `n` bytes together from the front of a text onto `before`, which is
reversed; `none` when `n` ends inside a character or past the end. -/
def splitBytesOnto (before : List Char) : Nat → List Char → Option (List Char × List Char)
  | 0, cs => some (before, cs)
  | _ + 1, [] => none
  | n + 1, c :: cs =>
    if c.utf8Size ≤ n + 1 then
      splitBytesOnto (c :: before) (n + 1 - c.utf8Size) cs
    else
      none

/-- Splits a text after its first `n` bytes. -/
def splitBytes? (n : Nat) (cs : List Char) : Option (List Char × List Char) :=
  (splitBytesOnto [] n cs).map fun (before, after) => (before.reverse, after)

-- ---------------------------------------------------------------------------
-- Spans
-- ---------------------------------------------------------------------------

/-- The bytes from `start` up to, and not including, `stop`. -/
structure Span where
  start : Nat
  stop : Nat
  deriving DecidableEq, Repr, Inhabited

namespace Span

/-- The span of no bytes at `offset`. -/
def empty (offset : Nat) : Span := ⟨offset, offset⟩

def length (s : Span) : Nat := s.stop - s.start

def isEmpty (s : Span) : Bool := s.start == s.stop

/-- The least span that covers both. -/
def extend (s t : Span) : Span := ⟨min s.start t.start, max s.stop t.stop⟩

/-- The text under a span, when both of its ends fall between characters of `source`. -/
def slice? (s : Span) (source : List Char) : Option (List Char) := do
  let (_, fromStart) ← splitBytes? s.start source
  let (text, _) ← splitBytes? s.length fromStart
  return text

end Span

end MessageLint
