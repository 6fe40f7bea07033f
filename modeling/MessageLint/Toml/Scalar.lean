-- SUMMARY: Strings, numbers, dates and times of TOML.
import MessageLint.Text.Digits
import MessageLint.Toml.Table

/-!
# Scalars

Readers take the text in front of them and answer what they found and the text behind it, or
nothing. Of floats, dates and times no more is kept than that they are well formed.
-/

namespace MessageLint.Toml

/-- A reader of the front of a text. -/
abbrev Scan (α : Type) := StateT (List Char) Option α

namespace Scan

/-- The characters in front that satisfy `p`. -/
def run (p : Char → Bool) : Scan (List Char) := fun text => some (text.span p)

/-- Takes a character that must be this one. -/
def mark (c : Char) : Scan Unit
  | d :: r => if c = d then some ((), r) else none
  | [] => none

/-- Takes a character if it is this one, and says whether it was. -/
def markIf (c : Char) : Scan Bool
  | d :: r => some (if c = d then (true, r) else (false, d :: r))
  | [] => some (false, [])

def oneOf (cs : List Char) : Scan Char
  | d :: r => if cs.contains d then some (d, r) else none
  | [] => none

end Scan

open Scan

def isBlank (c : Char) : Bool := c = ' ' || c = '\t'

/-- A character that may stand in a comment or a string: no control character except the tab. -/
def isPrintable (c : Char) : Bool := c = '\t' || (' ' ≤ c && c ≠ '\x7f')

def lineFeed : Scan Unit
  | '\n' :: r | '\r' :: '\n' :: r => some ((), r)
  | _ => none

-- ---------------------------------------------------------------------------
-- Strings
-- ---------------------------------------------------------------------------

/-- What follows a backslash: the character meant and the number of characters that mean it. -/
def escape? : List Char → Option (Char × Nat)
  | 'b' :: _ => some ('\x08', 1)
  | 't' :: _ => some ('\t', 1)
  | 'n' :: _ => some ('\n', 1)
  | 'f' :: _ => some ('\x0c', 1)
  | 'r' :: _ => some ('\r', 1)
  | '"' :: _ => some ('"', 1)
  | '\\' :: _ => some ('\\', 1)
  | 'u' :: r => (numberedChar? 4 r).map (·, 5)
  | 'U' :: r => (numberedChar? 8 r).map (·, 9)
  | _ => none

/-- The text behind a line end and all blanks and line ends after it. -/
def behindLines? : List Char → Option (List Char)
  | '\n' :: r => some (rest r)
  | '\r' :: '\n' :: r => some (rest r)
  | _ => none
where
  rest : List Char → List Char
    | '\r' :: '\n' :: r => rest r
    | c :: r => if isBlank c || c = '\n' then rest r else c :: r
    | [] => []

theorem behindLines?.rest_length_le (text : List Char) :
    (behindLines?.rest text).length ≤ text.length := by
  fun_induction behindLines?.rest text with
  | case1 r ih => exact Nat.le_succ_of_le (Nat.le_succ_of_le ih)
  | case2 c r _ _ ih => exact Nat.le_succ_of_le ih
  | case3 => exact Nat.le_refl _
  | case4 => exact Nat.le_refl _

theorem behindLines?_length {text after : List Char} (h : behindLines? text = some after) :
    after.length < text.length := by
  unfold behindLines? at h
  split at h
  · next r =>
    cases h
    exact Nat.lt_succ_of_le (behindLines?.rest_length_le r)
  · next r =>
    cases h
    exact Nat.lt_succ_of_lt (Nat.lt_succ_of_le (behindLines?.rest_length_le r))
  · simp at h

/-- A string in double quotes, behind its opening quote; with `isLong` it ends with three quotes,
may hold line ends, and a backslash at the end of a line joins it with the next word. Up to two
quotes may stand before the closing ones. -/
def basicFrom (isLong : Bool) (text : List Char) : Option (List Char × List Char) :=
  match text with
  | [] => none
  | '\\' :: r =>
    match h : if isLong then behindLines? (r.dropWhile isBlank) else none with
    | some after =>
      have : after.length < (r.dropWhile isBlank).length := by
        split at h
        · exact behindLines?_length h
        · simp at h
      have := (List.dropWhile_sublist isBlank (l := r)).length_le
      basicFrom isLong after
    | none =>
      match escape? r with
      | some (c, n) => (basicFrom isLong (r.drop n)).map fun (cs, after) => (c :: cs, after)
      | none => none
  | '"' :: r =>
    if isLong then
      match r with
      | '"' :: '"' :: '"' :: '"' :: after => some (['"', '"'], after)
      | '"' :: '"' :: '"' :: after => some (['"'], after)
      | '"' :: '"' :: after => some ([], after)
      | r => (basicFrom isLong r).map fun (cs, after) => ('"' :: cs, after)
    else
      some ([], r)
  | '\r' :: '\n' :: r =>
    if isLong then (basicFrom isLong r).map fun (cs, after) => ('\n' :: cs, after) else none
  | c :: r =>
    if isPrintable c || (isLong && c = '\n') then
      (basicFrom isLong r).map fun (cs, after) => (c :: cs, after)
    else
      none
termination_by text.length
decreasing_by all_goals simp_wf; try omega

/-- A string in single quotes, behind its opening quote; there are no escapes. -/
def literalFrom (isLong : Bool) : List Char → Option (List Char × List Char)
  | [] => none
  | '\'' :: r =>
    if isLong then
      match r with
      | '\'' :: '\'' :: '\'' :: '\'' :: after => some (['\'', '\''], after)
      | '\'' :: '\'' :: '\'' :: after => some (['\''], after)
      | '\'' :: '\'' :: after => some ([], after)
      | r => (literalFrom isLong r).map fun (cs, after) => ('\'' :: cs, after)
    else
      some ([], r)
  | '\r' :: '\n' :: r =>
    if isLong then (literalFrom isLong r).map fun (cs, after) => ('\n' :: cs, after) else none
  | c :: r =>
    if isPrintable c || (isLong && c = '\n') then
      (literalFrom isLong r).map fun (cs, after) => (c :: cs, after)
    else
      none

/-- A string on one line, as keys may be. -/
def shortString : Scan (List Char)
  | '"' :: r => basicFrom false r
  | '\'' :: r => literalFrom false r
  | _ => none

/-- A line end behind three opening quotes does not count. -/
def withoutLineFeed (text : List Char) : List Char :=
  match lineFeed text with
  | some (_, r) => r
  | none => text

def string : Scan (List Char)
  | '"' :: '"' :: '"' :: r => basicFrom true (withoutLineFeed r)
  | '\'' :: '\'' :: '\'' :: r => literalFrom true (withoutLineFeed r)
  | text => shortString text

-- ---------------------------------------------------------------------------
-- Numbers
-- ---------------------------------------------------------------------------

/-- Digits behind a digit; an underscore must stand between two of them. -/
def moreDigits (isDigit : Char → Bool) : Scan (List Char)
  | '_' :: c :: r =>
    if isDigit c then (moreDigits isDigit r).map fun (cs, after) => (c :: cs, after) else none
  | ['_'] => none
  | c :: r =>
    if isDigit c then (moreDigits isDigit r).map fun (cs, after) => (c :: cs, after)
    else some ([], c :: r)
  | [] => some ([], [])

def digits (isDigit : Char → Bool) : Scan (List Char)
  | c :: r =>
    if isDigit c then (moreDigits isDigit r).map fun (cs, after) => (c :: cs, after) else none
  | [] => none

/-- A sign, if there is one; whether it is a minus. -/
def sign : Scan Bool := do
  if ← markIf '-' then return true
  discard (markIf '+')
  return false

/-- The digits of a number in base 10, which has no zeros in front. -/
def decimalDigits : Scan (List Char)
  | '0' :: r => some (['0'], r)
  | text => digits Char.isDigit text

def isBelow (base : Nat) (c : Char) : Bool := (hexDigit? c).any (· < base)

/-- An integer of 64 bits, in base 16, 8 or 2 without a sign. -/
def integer : Scan Int := fun text => do
  let inBase (base : Nat) (r : List Char) : Option (Int × List Char) := do
    let (ds, after) ← digits (isBelow base) r
    return (((← numberIn? base ds) : Int), after)
  let (n, after) ← match text with
    | '0' :: 'x' :: r => inBase 16 r
    | '0' :: 'o' :: r => inBase 8 r
    | '0' :: 'b' :: r => inBase 2 r
    | _ => do
      let (isNegative, r) ← sign text
      let (ds, after) ← decimalDigits r
      let n : Int := ← numberIn? 10 ds
      pure (if isNegative then -n else n, after)
  if -0x8000000000000000 ≤ n && n < 0x8000000000000000 then return (n, after) else failure

/-- Whether `m` times the power of ten lies beyond the largest number of 64-bit floating point. -/
def isTooLarge (m : Nat) (exponent : Int) : Bool :=
  let size : Int := (Nat.toDigits 10 m).length + exponent
  let limit := Nat.pow 2 1024 - Nat.pow 2 970
  m ≠ 0 && (400 < size || (300 < size &&
    if 0 ≤ exponent then limit ≤ m * Nat.pow 10 exponent.toNat
    else limit * Nat.pow 10 (-exponent).toNat ≤ m))

/-- The digits of an exponent, with their sign. -/
def exponent : Scan Int := do
  discard (oneOf ['e', 'E'])
  let isNegative ← sign
  let n : Int := ← fun text => do
    let (ds, after) ← digits Char.isDigit text
    return (((← numberIn? 10 ds) : Int), after)
  return if isNegative then -n else n

/-- A number with a fraction or an exponent, or one of the words for infinity and for no number. A
positive number must not be too large. -/
def float : Scan Unit := do
  let isNegative ← sign
  match ← optional (run Char.isAlpha) with
  | some ['i', 'n', 'f'] | some ['n', 'a', 'n'] => return ()
  | some (_ :: _) => failure
  | _ => pure ()
  let whole ← decimalDigits
  let fraction ← do
    if ← markIf '.' then some <$> digits Char.isDigit else pure none
  let power ← optional exponent
  if fraction.isNone && power.isNone then
    failure
  let places := fraction.getD []
  let m := (numberIn? 10 (whole ++ places)).getD 0
  if !isNegative && isTooLarge m (power.getD 0 - places.length) then
    failure

-- ---------------------------------------------------------------------------
-- Dates and times
-- ---------------------------------------------------------------------------

/-- A number of exactly `count` digits. -/
def fixed (count : Nat) : Scan Nat := fun text => do
  let ds := text.take count
  if ds.length = count && ds.all Char.isDigit then
    return (← numberIn? 10 ds, text.drop count)
  else
    failure

/-- A number of two digits between two others. -/
def between (low high : Nat) : Scan Unit := do
  let n ← fixed 2
  if low ≤ n && n ≤ high then return () else failure

def daysOf (year month : Nat) : Nat :=
  if month = 2 then
    if year % 4 = 0 && (year % 100 ≠ 0 || year % 400 = 0) then 29 else 28
  else if [4, 6, 9, 11].contains month then 30
  else 31

def date : Scan Unit := do
  let year ← fixed 4
  mark '-'
  let month ← fixed 2
  mark '-'
  let day ← fixed 2
  if 1 ≤ month && month ≤ 12 && 1 ≤ day && day ≤ daysOf year month then return () else failure

/-- Hours, minutes and seconds; a leap second may be written. -/
def time : Scan Unit := do
  between 0 23
  mark ':'
  between 0 59
  mark ':'
  between 0 60
  discard <| optional do
    mark '.'
    if (← run Char.isDigit).isEmpty then failure

def zone : Scan Unit := do
  match ← oneOf ['Z', 'z', '+', '-'] with
  | 'Z' | 'z' => return ()
  | _ =>
    between 0 23
    mark ':'
    between 0 59

def dateTime : Scan Unit :=
  (do
    date
    discard <| optional do
      discard (oneOf ['T', 't', ' '])
      time
      discard (optional zone)) <|> time

end MessageLint.Toml
