-- SUMMARY: Which texts have lines, and that later offsets have later positions.
import Mathlib
import MessageLint.LineIndex

/-!
# Lines and columns

A text has lines unless a carriage return is in it. A position is read off the line ends before an
offset (`LineIndex.before`). The line ends before an earlier offset are the first of those before a
later one, so positions keep the order of offsets.
-/

namespace MessageLint

theorem LineIndex.ofText_eq_ok {text : List Char} (h : '\r' ∉ text) :
    LineIndex.ofText text = .ok ⟨offsetsOf '\n' 0 text⟩ := by
  have hnone : ∀ offset, offsetsOf '\r' offset text = [] := by
    induction text with
    | nil => exact fun _ => rfl
    | cons c cs ih =>
      obtain ⟨hc, hcs⟩ := not_or.1 (List.mem_cons.not.1 h)
      intro offset
      rw [offsetsOf, if_neg (Ne.symm hc), ih hcs]
  simp [ofText, hnone]

theorem offsetsOf_ne_nil {ch : Char} {text : List Char} (h : ch ∈ text) (offset : Nat) :
    offsetsOf ch offset text ≠ [] := by
  induction text generalizing offset with
  | nil => cases h
  | cons c cs ih =>
    rw [offsetsOf]
    split
    · exact List.cons_ne_nil _ _
    · next hc => exact ih ((List.mem_cons.1 h).resolve_left (Ne.symm hc)) _

theorem LineIndex.exists_ofText_eq_error {text : List Char} (h : '\r' ∈ text) :
    ∃ e, LineIndex.ofText text = .error e := by
  obtain ⟨offset, offsets, hoffsets⟩ := List.exists_cons_of_ne_nil (offsetsOf_ne_nil h 0)
  exact ⟨_, by rw [ofText, hoffsets]; rfl⟩

namespace LineIndex

variable {index : LineIndex} {a b : Nat}

theorem before_isPrefix (index : LineIndex) (h : a ≤ b) : index.before a <+: index.before b := by
  have hboth : (index.before b).takeWhile (· < a) = index.before a := by
    rw [before, before, List.takeWhile_takeWhile]
    congr 1
    funext lineEnd
    rw [Bool.eq_iff_iff]
    simp only [decide_eq_true_eq]
    omega
  rw [← hboth]
  exact List.takeWhile_prefix _

theorem position_line (index : LineIndex) (offset : Nat) :
    (index.position offset).line = (index.before offset).length + 1 := by
  rw [position]
  split
  · rfl
  · next h => simp [List.getLast?_eq_none_iff.1 h]

/-- On one line columns differ as offsets do. -/
theorem position_column_lt (h : a < b) (heq : index.before a = index.before b) :
    (index.position a).column < (index.position b).column := by
  rw [position, position, ← heq]
  split
  · next lineEnd hlast =>
    have hlt : lineEnd < a := by
      simpa using List.mem_takeWhile_imp (List.mem_of_getLast? hlast)
    change a - lineEnd < b - lineEnd
    omega
  · change a + 1 < b + 1
    omega

/-- A later offset has a later position: a later line, or a later column of the same line. -/
theorem position_lt (index : LineIndex) (h : a < b) :
    (index.position a).line < (index.position b).line ∨
      (index.position a).line = (index.position b).line ∧
        (index.position a).column < (index.position b).column := by
  have hbefore := index.before_isPrefix (Nat.le_of_lt h)
  rw [position_line, position_line]
  rcases Nat.lt_or_eq_of_le hbefore.length_le with hlt | heq
  · exact .inl (Nat.succ_lt_succ hlt)
  · exact .inr ⟨congrArg (· + 1) heq, position_column_lt h (hbefore.eq_of_length heq)⟩

theorem position_le (index : LineIndex) (h : a ≤ b) :
    (index.position a).line < (index.position b).line ∨
      (index.position a).line = (index.position b).line ∧
        (index.position a).column ≤ (index.position b).column := by
  rcases Nat.lt_or_eq_of_le h with hlt | rfl
  · exact (index.position_lt hlt).imp_right fun ⟨hline, hcolumn⟩ => ⟨hline, hcolumn.le⟩
  · exact .inr ⟨rfl, Nat.le_refl _⟩

end LineIndex

end MessageLint
