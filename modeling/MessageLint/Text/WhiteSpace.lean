-- SUMMARY: The characters with the Unicode property White_Space, and trimming them.

/-!
# White space

`isWhiteSpace` is the Unicode property White_Space, which has been the same 25 characters since
Unicode 6.3.
-/

namespace MessageLint

def isWhiteSpace (c : Char) : Bool :=
  ('\t' ≤ c && c ≤ '\r') || c == ' ' || c == '\u0085' || c == '\u00a0' || c == '\u1680' ||
    ('\u2000' ≤ c && c ≤ '\u200a') || c == '\u2028' || c == '\u2029' || c == '\u202f' ||
    c == '\u205f' || c == '\u3000'

/-- A list without the elements at both ends that satisfy `p`. -/
def trimBoth (p : α → Bool) (xs : List α) : List α :=
  ((xs.dropWhile p).reverse.dropWhile p).reverse

/-- A text without the white space at both ends. -/
def trimWhiteSpace (s : String) : String :=
  String.ofList (trimBoth isWhiteSpace s.toList)

end MessageLint
