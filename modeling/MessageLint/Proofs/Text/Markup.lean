-- SUMMARY: How a value is scanned: runs are stretches of it, and plain text goes to one run.
import Mathlib
import MessageLint.Text.Markup

/-!
# Markup in text

What stands behind markup is the end of the value, so a run that is read up to the next markup is a
stretch of the value. A text is plain (`Plain`) when no `<` in it opens markup; whether one does depends
on what follows the text. Reading goes over plain text as a whole (`runsFrom_plain`), and over markup by
what stands behind it (`runsFrom_markup`).
-/

namespace MessageLint.Markup

variable {mark text rest run value : List Char}

theorem behind_suffix (mark text : List Char) : behind mark text <:+ text := by
  induction text with
  | nil => exact List.suffix_rfl
  | cons c cs ih =>
    rw [behind]
    split
    · exact List.drop_suffix ..
    · exact ih.trans (List.suffix_cons ..)

theorem behindTag_suffix (quote : Option Char) (text : List Char) : behindTag quote text <:+ text := by
  induction text generalizing quote with
  | nil => exact List.suffix_rfl
  | cons c cs ih =>
    cases quote with
    | some q => exact (ih _).trans (List.suffix_cons ..)
    | none =>
      rw [behindTag]
      split
      · exact (ih _).trans (List.suffix_cons ..)
      · split
        · exact List.suffix_cons ..
        · exact (ih _).trans (List.suffix_cons ..)

theorem behindMarkup?_suffix (h : behindMarkup? text = some rest) : rest <:+ text := by
  unfold behindMarkup? at h
  split at h
  · next body =>
    obtain rfl := Option.some.inj h
    exact (behind_suffix _ body).trans ⟨['!', '-', '-'], rfl⟩
  · obtain rfl := Option.some.inj h
    exact behind_suffix ..
  · obtain rfl := Option.some.inj h
    exact behind_suffix ..
  · split at h
    · obtain rfl := Option.some.inj h
      exact behindTag_suffix ..
    · simp at h
  · split at h
    · obtain rfl := Option.some.inj h
      exact behindTag_suffix ..
    · simp at h
  · simp at h

theorem eq_reverse_of_mem_finished {read : List Char} (h : run ∈ finished read) :
    run = read.reverse := by
  rw [finished] at h
  split at h
  · exact absurd h List.not_mem_nil
  · exact List.mem_singleton.1 h

/-- The runs that are still to come are stretches of the run being read and what follows it. -/
theorem runsFrom_infix {read : List Char} (h : run ∈ runsFrom read text) :
    run <:+: read.reverse ++ text := by
  fun_induction runsFrom read text with
  | case1 read =>
    rw [eq_reverse_of_mem_finished h, List.append_nil]
  | case2 read cs rest hrest _ ih =>
    rcases List.mem_append.1 h with h | h
    · rw [eq_reverse_of_mem_finished h]
      exact (List.prefix_append ..).isInfix
    · have hsuffix : rest <:+ read.reverse ++ '<' :: cs :=
        ((behindMarkup?_suffix hrest).trans (List.suffix_cons ..)).trans (List.suffix_append ..)
      exact (ih h).trans hsuffix.isInfix
  | case3 read cs _ ih => simpa using ih h
  | case4 read c cs _ ih => simpa using ih h

/-- Every visible run is a stretch of the value. -/
theorem textRuns_infix (h : run ∈ textRuns value) : run <:+: value := runsFrom_infix h

-- ---------------------------------------------------------------------------
-- What opens markup
-- ---------------------------------------------------------------------------

/-- The one or two characters behind a `<` say whether it opens markup. -/
theorem isSome_behindMarkup? : (behindMarkup? text).isSome ↔
    (∃ c ∈ text.head?, c = '!' ∨ c = '?' ∨ c.isAlpha) ∨
      ∃ c tail, text = '/' :: c :: tail ∧ c.isAlpha := by
  unfold behindMarkup?
  split
  · simp
  · simp
  · simp
  · next c tail => cases h : c.isAlpha <;> simp [h, show '/'.isAlpha = false by decide]
  · next c tail _ hbang hquestion hslash =>
    have hc : c ≠ '!' ∧ c ≠ '?' := ⟨hbang, hquestion⟩
    have hslash' : ∀ d, c = '/' → ∀ more, tail = d :: more → d.isAlpha = false :=
      fun d hc more htail => (hslash d more hc htail).elim
    cases h : c.isAlpha with
    | true => simp [h]
    | false => simpa [h, hc] using hslash'
  · simp

/-- A `<` that opens markup does so whatever else follows. -/
theorem behindMarkup?_eq_none_of_append (h : behindMarkup? (text ++ rest) = none) :
    behindMarkup? text = none := by
  by_contra hne
  rw [← Ne, ← Option.isSome_iff_ne_none, isSome_behindMarkup?] at hne
  have hsome : (behindMarkup? (text ++ rest)).isSome := by
    rw [isSome_behindMarkup?]
    rcases hne with ⟨c, hc, hopens⟩ | ⟨c, tail, rfl, hc⟩
    · exact .inl ⟨c, List.mem_head?_append_of_mem_head? hc, hopens⟩
    · exact .inr ⟨c, tail ++ rest, rfl, hc⟩
  simp [h] at hsome

-- ---------------------------------------------------------------------------
-- Plain text
-- ---------------------------------------------------------------------------

/-- No `<` of the text opens markup where `rest` stands behind it. -/
def Plain (text rest : List Char) : Prop :=
  ∀ before tail, text = before ++ '<' :: tail → behindMarkup? (tail ++ rest) = none

theorem plain_of_notMem (h : '<' ∉ text) (rest : List Char) : Plain text rest := by
  rintro before tail rfl
  simp at h

theorem plain_cons {c : Char} : Plain (c :: text) rest ↔
    (c = '<' → behindMarkup? (text ++ rest) = none) ∧ Plain text rest := by
  constructor
  · intro h
    refine ⟨?_, fun before tail heq => h (c :: before) tail (by rw [heq]; rfl)⟩
    rintro rfl
    exact h [] text rfl
  · rintro ⟨hfirst, htext⟩ before tail heq
    rcases List.cons_eq_append_iff.1 heq with ⟨rfl, hcons⟩ | ⟨before, rfl, hmore⟩
    · obtain ⟨rfl, rfl⟩ := List.cons.inj hcons.symm
      exact hfirst rfl
    · exact htext before tail hmore

theorem plain_concat {c : Char} (h : Plain text (c :: rest))
    (hlast : c = '<' → behindMarkup? rest = none) : Plain (text ++ [c]) rest := by
  induction text with
  | nil => exact plain_cons.2 ⟨hlast, plain_of_notMem List.not_mem_nil rest⟩
  | cons d text ih =>
    obtain ⟨hfirst, htext⟩ := plain_cons.1 h
    refine plain_cons.2 ⟨fun hd => ?_, ih htext⟩
    rw [show text.append [c] ++ rest = text ++ c :: rest from List.append_assoc ..]
    exact hfirst hd

/-- A text that is plain stays so when what follows is cut off. -/
theorem Plain.alone (h : Plain text rest) : Plain text [] := by
  intro before tail heq
  rw [List.append_nil]
  exact behindMarkup?_eq_none_of_append (h before tail heq)

-- ---------------------------------------------------------------------------
-- Reading runs
-- ---------------------------------------------------------------------------

theorem runsFrom_char {c : Char} {read : List Char} (h : c ≠ '<') :
    runsFrom read (c :: text) = runsFrom (c :: read) text := by
  rw [runsFrom]
  exact h

theorem runsFrom_stray {read : List Char} (h : behindMarkup? text = none) :
    runsFrom read ('<' :: text) = runsFrom ('<' :: read) text := by
  rw [runsFrom]
  split <;> simp_all

/-- Markup ends the run that is being read. -/
theorem runsFrom_markup {read : List Char} (h : behindMarkup? text = some rest) :
    runsFrom read ('<' :: text) = finished read ++ runsFrom [] rest := by
  rw [runsFrom]
  split <;> simp_all

/-- Plain text goes to the run that is being read. -/
theorem runsFrom_plain (h : Plain text rest) (read : List Char) :
    runsFrom read (text ++ rest) = runsFrom (text.reverse ++ read) rest := by
  induction text generalizing read with
  | nil => rfl
  | cons c text ih =>
    obtain ⟨hfirst, htext⟩ := plain_cons.1 h
    have hstep : runsFrom read (c :: (text ++ rest)) = runsFrom (c :: read) (text ++ rest) := by
      by_cases hc : c = '<'
      · subst hc
        exact runsFrom_stray (hfirst rfl)
      · exact runsFrom_char hc
    rw [List.cons_append, hstep, ih htext, List.reverse_cons, List.append_assoc]
    rfl

/-- Plain text is one run, if there is any. -/
theorem textRuns_plain (h : Plain text []) : textRuns text = finished text.reverse := by
  have hruns := runsFrom_plain h []
  rw [List.append_nil, List.append_nil, runsFrom] at hruns
  exact hruns

theorem finished_reverse (text : List Char) :
    finished text.reverse = [text].filter fun run => !run.isEmpty := by
  cases text with
  | nil => rfl
  | cons c text => simp [finished]

end MessageLint.Markup
