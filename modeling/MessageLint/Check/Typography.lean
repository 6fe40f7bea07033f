-- SUMMARY: Apostrophes, quotes and ellipses in visible text.
import MessageLint.Resource
import MessageLint.Check.Finding
import MessageLint.Text.CharRef
import MessageLint.Text.Markup
import MessageLint.Text.WordChar

/-!
# Typography

The visible runs of a text, with their character references decoded, are checked for straight
apostrophes and quotes, for an opening quote used as an apostrophe, and for three periods. A
quotation is a quote, at least one character, and the last such quote on the same line. Quotations
in single quotes are blanked out before apostrophes are looked for, so that their quotes are not
mistaken for them.
-/

namespace MessageLint.Typography

-- ---------------------------------------------------------------------------
-- Quotations
-- ---------------------------------------------------------------------------

/-- What stands behind the last `quote` on the line. -/
def behindLast? (quote : Char) : List Char → Option (List Char)
  | [] => none
  | c :: cs =>
    if c = '\n' then
      none
    else
      match behindLast? quote cs with
      | some rest => some rest
      | none => if c = quote then some cs else none

/-- What stands behind the quotation that opens the text, if one does. -/
def behindQuotation? (quote : Char) : List Char → Option (List Char)
  | opening :: c :: cs => if opening = quote ∧ c ≠ '\n' then behindLast? quote cs else none
  | _ => none

/-- Whether a quotation occurs in the text. -/
def hasQuotation (quote : Char) : List Char → Bool
  | [] => false
  | c :: cs => (behindQuotation? quote (c :: cs)).isSome || hasQuotation quote cs

theorem behindLast?_length {quote : Char} {text rest : List Char}
    (h : behindLast? quote text = some rest) : rest.length < text.length := by
  induction text generalizing rest with
  | nil => simp [behindLast?] at h
  | cons c cs ih =>
    simp only [behindLast?] at h
    split at h
    · simp at h
    · split at h
      · next rest' heq =>
        cases h
        have := ih heq
        simp only [List.length_cons]
        omega
      · split at h
        · cases h
          simp
        · simp at h

theorem behindQuotation?_length {quote : Char} {text rest : List Char}
    (h : behindQuotation? quote text = some rest) : rest.length < text.length := by
  unfold behindQuotation? at h
  split at h
  · split at h
    · have := behindLast?_length h
      simp only [List.length_cons]
      omega
    · simp at h
  · simp at h

/-- Stands for a quotation that was blanked out; it is no word character. -/
def placeholder : Char := '\x01'

/-- The text with its quotations blanked out, from left to right. -/
def blankQuotations (quote : Char) (text : List Char) : List Char :=
  match h : behindQuotation? quote text with
  | some rest =>
    have := behindQuotation?_length h
    placeholder :: blankQuotations quote rest
  | none =>
    match text with
    | [] => []
    | c :: cs => c :: blankQuotations quote cs
termination_by text.length

-- ---------------------------------------------------------------------------
-- The checks
-- ---------------------------------------------------------------------------

/-- Whether `mark` occurs between two word characters. -/
def hasBetweenWords (mark : Char) : List Char → Bool
  | a :: m :: b :: r =>
    (isWordChar a && m == mark && isWordChar b) || hasBetweenWords mark (m :: b :: r)
  | _ => false

def hasThreePeriods : List Char → Bool
  | [] => false
  | c :: cs => ['.', '.', '.'].isPrefixOf (c :: cs) || hasThreePeriods cs

/-- Whether a run of visible text breaks a rule of typography. -/
def breaks (run : List Char) : Rule → Bool
  | .straightApostrophe => hasBetweenWords '\'' (blankQuotations '\'' run)
  | .wrongCurlyApostrophe => hasBetweenWords '\u2018' run
  | .straightSingleQuotes => hasQuotation '\'' run
  | .straightDoubleQuotes => hasQuotation '"' run
  | .threeDotEllipsis => hasThreePeriods run
  | _ => false

/-- The visible runs of a value, as a reader sees them. -/
def visibleRuns (value : String) : List (List Char) :=
  (Markup.textRuns value.toList).map CharRef.decode

end MessageLint.Typography

namespace MessageLint

/-- For each visible run the rules of typography that it breaks, in code order; all are reported at
the span of the whole text. -/
def TextElement.findings (t : TextElement) : List Finding :=
  (Typography.visibleRuns t.value).flatMap fun run =>
    (Rule.all.filter (Typography.breaks run)).map fun rule => ⟨rule, t.span, ""⟩

end MessageLint
