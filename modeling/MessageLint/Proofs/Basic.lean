-- SUMMARY: Lists, and steps that may fail: laws that are about no part of the program.
import Mathlib

/-!
# Lists and steps that may fail

A run of steps in `Except` succeeds when each step does, and a fault among them is that of the whole. The
other laws are on lists that are read up to a place, cut, filtered, or grown at the end.
-/

namespace MessageLint

-- ---------------------------------------------------------------------------
-- Steps that may fail
-- ---------------------------------------------------------------------------

section Except

variable {ε ε' α β σ : Type} {x : Except ε α}

theorem map_eq_ok {f : α → β} {b : β} : x.map f = .ok b ↔ ∃ a, x = .ok a ∧ f a = b := by
  cases x <;> simp [Except.map]

theorem mapError_eq_ok {g : ε → ε'} {a : α} :
    x.mapError g = .ok a ↔ x = .ok a := by
  cases x <;> simp [Except.mapError]

theorem bind_eq_ok {f : α → Except ε β} {b : β} :
    (x >>= f) = .ok b ↔ ∃ a, x = .ok a ∧ f a = .ok b := by
  cases x <;> simp [bind, Except.bind]

theorem mapM_eq_ok {f : α → Except ε β} {as : List α} {bs : List β} :
    as.mapM f = .ok bs ↔ List.Forall₂ (fun a b => f a = .ok b) as bs := by
  induction as generalizing bs with
  | nil =>
    rw [List.mapM_nil, List.forall₂_nil_left_iff]
    exact ⟨fun h => (Except.ok.inj h).symm, fun h => by rw [h]; rfl⟩
  | cons a as ih =>
    rw [List.mapM_cons, List.forall₂_cons_left_iff]
    cases ha : f a with
    | error e => simp [bind, Except.bind]
    | ok b =>
      cases has : as.mapM f with
      | error e => simp [bind, Except.bind, ← ih, has]
      | ok bs => simp [bind, Except.bind, pure, Except.pure, ← ih, has, eq_comm]

theorem mapM_congr {f g : α → Except ε β} {as : List α} (h : ∀ a ∈ as, f a = g a) :
    as.mapM f = as.mapM g := by
  induction as with
  | nil => rfl
  | cons a as ih =>
    rw [List.forall_mem_cons] at h
    rw [List.mapM_cons, List.mapM_cons, h.1, ih h.2]

section Fold

variable {f : σ → α → Except ε σ} {init s : σ} {as : List α} {e : ε}

/-- A fold over one element more goes on from where the fold so far has come to. -/
theorem foldlM_concat_of_ok (h : as.foldlM f init = .ok s) (a : α) :
    (as ++ [a]).foldlM f init = f s a := by
  rw [List.foldlM_append, h]
  change [a].foldlM f s = f s a
  rw [List.foldlM_cons]
  exact bind_pure (f s a)

theorem foldlM_concat_of_error (h : as.foldlM f init = .error e) (a : α) :
    (as ++ [a]).foldlM f init = .error e := by
  rw [List.foldlM_append, h]
  rfl

end Fold

end Except

-- ---------------------------------------------------------------------------
-- Lists
-- ---------------------------------------------------------------------------

section List

variable {α β : Type}

theorem flatMap_ite_singleton (p : α → Prop) [DecidablePred p] (f : α → β) (l : List α) :
    l.flatMap (fun a => if p a then [f a] else []) = (l.filter p).map f := by
  induction l with
  | nil => rfl
  | cons a l ih => by_cases h : p a <;> simp [h, ih]

/-- One element more is one more distinct element, unless it was there before. -/
theorem length_dedup_concat [DecidableEq α] (l : List α) (a : α) :
    (l ++ [a]).dedup.length = l.dedup.length + if a ∈ l then 0 else 1 := by
  have hperm : (l ++ [a]).Perm (a :: l) := List.perm_append_singleton a l
  rw [hperm.dedup.length_eq]
  split
  · next h => rw [List.dedup_cons_of_mem h]; rfl
  · next h => rw [List.dedup_cons_of_notMem h]; rfl

/-- Where a list stops to be of `p`, it does so whatever stands behind it. -/
theorem takeWhile_append_of_dropWhile {p : α → Bool} {l tail : List α} (h : l.dropWhile p ≠ []) :
    (l ++ tail).takeWhile p = l.takeWhile p ∧ (l ++ tail).dropWhile p = l.dropWhile p ++ tail := by
  induction l with
  | nil => simp at h
  | cons a l ih =>
    by_cases ha : p a
    · rw [List.dropWhile_cons_of_pos ha] at h
      simp [ha, ih h]
    · simp [ha]

/-- Reading at an index behind a cut. -/
theorem getElem?_extract_sub {l : List α} {start stop i : Nat} (hle : start ≤ i) (hlt : i < stop) :
    (l.extract start stop)[i - start]? = l[i]? := by
  rw [List.extract_eq_take_drop, List.getElem?_take_of_lt (Nat.sub_lt_sub_right hle hlt),
    List.getElem?_drop, Nat.add_sub_of_le hle]

theorem count_newline_of_spaces {text : List Char} (h : ∀ ch ∈ text, ch = ' ') :
    text.count '\n' = 0 :=
  List.count_eq_zero.2 fun hline => absurd (h _ hline) (by decide)

theorem intercalate_singleton_cons (separator : α) (first : List α) (rest : List (List α)) :
    [separator].intercalate (first :: rest) = first ++ rest.flatMap (separator :: ·) := by
  induction rest generalizing first with
  | nil => simp
  | cons next rest ih => rw [List.intercalate_cons_cons, ih]; simp

end List

end MessageLint
