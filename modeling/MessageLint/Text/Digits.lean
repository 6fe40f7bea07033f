-- SUMMARY: Numbers written in digits, and characters given by their numbers.

/-!
# Digits

Hexadecimal digits come in either case. A character given by its number is a Unicode scalar value:
surrogates, and numbers past the last plane, name none.
-/

namespace MessageLint

/-- The value of a hexadecimal digit, `none` for other characters. -/
def hexDigit? (ch : Char) : Option Nat :=
  if '0' ≤ ch ∧ ch ≤ '9' then some (ch.toNat - '0'.toNat)
  else if 'a' ≤ ch ∧ ch ≤ 'f' then some (ch.toNat - 'a'.toNat + 10)
  else if 'A' ≤ ch ∧ ch ≤ 'F' then some (ch.toNat - 'A'.toNat + 10)
  else none

/-- The number that a run of hexadecimal digits writes. -/
def hexValue (digits : List Char) : Nat :=
  digits.foldl (fun n ch => 16 * n + (hexDigit? ch).getD 0) 0

/-- The number that digits write in a base of at most sixteen, if there are any. -/
def numberIn? (base : Nat) (digits : List Char) : Option Nat := do
  let values ← digits.mapM hexDigit?
  if !values.isEmpty && values.all (· < base) then
    return values.foldl (fun n d => base * n + d) 0
  else
    failure

/-- The character with the given number; surrogates and numbers past the last plane have none. -/
def scalar? (n : Nat) : Option Char :=
  if n.isValidChar then some (Char.ofNat n) else none

/-- The character whose number the first `count` characters write in base 16. -/
def numberedChar? (count : Nat) (text : List Char) : Option Char :=
  if text.length < count then none else (numberIn? 16 (text.take count)).bind scalar?

end MessageLint
