-- SUMMARY: The runs of visible text between inline markup.

/-!
# Markup in text

Values may hold inline markup: tags, whose attribute values may be quoted, comments (`<!-- … -->`),
declarations (`<! … >`) and instructions (`<? … >`). Only what stands between them is visible. A `<`
that opens none of these is text, and markup without an end runs to the end of the value.
-/

namespace MessageLint.Markup

-- ---------------------------------------------------------------------------
-- Where markup ends
-- ---------------------------------------------------------------------------

/-- What stands behind the first occurrence of `mark`; nothing when there is none. -/
def behind (mark : List Char) : List Char → List Char
  | [] => []
  | c :: cs => if mark.isPrefixOf (c :: cs) then (c :: cs).drop mark.length else behind mark cs

/-- What stands behind the `>` that ends a tag. Within a quoted value, opened by `quote`, only the
same quote counts. -/
def behindTag (quote : Option Char) : List Char → List Char
  | [] => []
  | c :: cs =>
    match quote with
    | some q => behindTag (if c = q then none else some q) cs
    | none =>
      if c = '"' ∨ c = '\'' then behindTag (some c) cs
      else if c = '>' then cs
      else behindTag none cs

/-- Given what follows a `<`, what stands behind the markup that it opens. -/
def behindMarkup? (text : List Char) : Option (List Char) :=
  match text with
  | '!' :: '-' :: '-' :: body => some (behind ['-', '-', '>'] body)
  | '!' :: _ | '?' :: _ => some (behind ['>'] text)
  | '/' :: c :: _ => if c.isAlpha then some (behindTag none text) else none
  | c :: _ => if c.isAlpha then some (behindTag none text) else none
  | [] => none

theorem behind_length_le (mark text : List Char) : (behind mark text).length ≤ text.length := by
  induction text with
  | nil => exact Nat.le_refl _
  | cons c cs ih =>
    simp only [behind]
    split
    · simp
    · exact Nat.le_succ_of_le ih

theorem behindTag_length_le (quote : Option Char) (text : List Char) :
    (behindTag quote text).length ≤ text.length := by
  induction text generalizing quote with
  | nil => simp [behindTag]
  | cons c cs ih =>
    cases quote with
    | some q => exact Nat.le_succ_of_le (ih _)
    | none =>
      simp only [behindTag]
      split
      · exact Nat.le_succ_of_le (ih _)
      · split
        · exact Nat.le_succ _
        · exact Nat.le_succ_of_le (ih _)

theorem behindMarkup?_length_le {text rest : List Char} (h : behindMarkup? text = some rest) :
    rest.length ≤ text.length := by
  unfold behindMarkup? at h
  split at h
  · next body =>
    cases h
    have := behind_length_le ['-', '-', '>'] body
    simp only [List.length_cons]
    omega
  · cases h
    exact behind_length_le _ _
  · cases h
    exact behind_length_le _ _
  · split at h
    · cases h
      exact behindTag_length_le _ _
    · simp at h
  · split at h
    · cases h
      exact behindTag_length_le _ _
    · simp at h
  · simp at h

-- ---------------------------------------------------------------------------
-- Runs
-- ---------------------------------------------------------------------------

/-- A run that is being read, newest character first, as a list: an empty one is left out. -/
def finished (run : List Char) : List (List Char) := if run.isEmpty then [] else [run.reverse]

def runsFrom (run : List Char) : List Char → List (List Char)
  | [] => finished run
  | '<' :: cs =>
    match h : behindMarkup? cs with
    | some rest =>
      have := behindMarkup?_length_le h
      finished run ++ runsFrom [] rest
    | none => runsFrom ('<' :: run) cs
  | c :: cs => runsFrom (c :: run) cs
termination_by cs => cs.length

/-- The runs of text between markup, in order and none of them empty. -/
def textRuns (value : List Char) : List (List Char) := runsFrom [] value

end MessageLint.Markup
