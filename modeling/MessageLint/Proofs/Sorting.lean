-- SUMMARY: Stable sorting by a key: what it keeps, and that it leaves no choice.
import Mathlib

/-!
# Stable sorting

`Arranged key l s` says all that is asked of a stable sort: `s` has the elements of `l`, in the order of
their keys, and those of one key in the order that they have in `l`. So the lists of the elements of
one key say everything about `s` (`eq_of_classes`): it cannot be told from them how `l` had mixed
elements of different keys.
-/

namespace MessageLint

variable {α κ : Type} [LinearOrder κ] {key : α → κ} {l l' s t : List α} {a b : α}

/-- The list `s` is `l` sorted by a key; elements of one key keep their order. -/
structure Arranged (key : α → κ) (l s : List α) : Prop where
  perm : s.Perm l
  ordered : s.Pairwise fun a b => key a ≤ key b
  stable : ∀ k, s.filter (key · = k) = l.filter (key · = k)

theorem arranged_mergeSort {le : α → α → Bool} (hle : ∀ a b, le a b ↔ key a ≤ key b) (l : List α) :
    Arranged key l (l.mergeSort le) := by
  have htrans : ∀ a b c, le a b → le b c → le a c := by
    intro a b c hab hbc
    exact (hle a c).2 (((hle a b).1 hab).trans ((hle b c).1 hbc))
  have htotal : ∀ a b, (le a b || le b a) = true := by
    intro a b
    rw [Bool.or_eq_true, hle, hle]
    exact le_total ..
  have hperm := List.mergeSort_perm l le
  refine ⟨hperm, (List.pairwise_mergeSort htrans htotal l).imp fun h => (hle ..).1 h, fun k => ?_⟩
  -- the elements of one key are in order as they stand, so all of them are kept in this order
  have hclass : (l.filter (key · = k)).Pairwise fun a b => le a b := by
    refine List.pairwise_of_forall_mem_list fun a ha b hb => (hle a b).2 ?_
    rw [of_decide_eq_true (List.mem_filter.1 ha).2, of_decide_eq_true (List.mem_filter.1 hb).2]
  have hkept := (List.sublist_mergeSort htrans htotal hclass List.filter_sublist).filter (key · = k)
  rw [List.filter_filter] at hkept
  simp only [Bool.and_self] at hkept
  exact (hkept.eq_of_length (hperm.filter _).length_eq.symm).symm

/-- The first of an ordered list has the least key. -/
theorem key_head_le (h : (a :: s).Pairwise fun a b => key a ≤ key b) (hb : b ∈ a :: s) :
    key a ≤ key b := by
  rcases List.mem_cons.1 hb with rfl | hb
  · exact le_rfl
  · exact List.rel_of_pairwise_cons h hb

theorem mem_iff_of_classes (h : ∀ k, s.filter (key · = k) = t.filter (key · = k)) :
    a ∈ s ↔ a ∈ t := by
  have hclass : a ∈ s.filter (key · = key a) ↔ a ∈ t.filter (key · = key a) := by rw [h]
  simpa using hclass

/-- An ordered list is known from its elements of each key. -/
theorem eq_of_classes (hs : s.Pairwise fun a b => key a ≤ key b)
    (ht : t.Pairwise fun a b => key a ≤ key b)
    (h : ∀ k, s.filter (key · = k) = t.filter (key · = k)) : s = t := by
  induction s generalizing t with
  | nil =>
    cases t with
    | nil => rfl
    | cons b t => cases (mem_iff_of_classes h).2 List.mem_cons_self
  | cons a s ih =>
    cases t with
    | nil => cases (mem_iff_of_classes h).1 List.mem_cons_self
    | cons b t =>
      have hkey : key a = key b :=
        le_antisymm (key_head_le hs ((mem_iff_of_classes h).2 List.mem_cons_self))
          (key_head_le ht ((mem_iff_of_classes h).1 List.mem_cons_self))
      have hfirst := h (key a)
      simp only [List.filter_cons, hkey, decide_true, if_true] at hfirst
      obtain rfl := (List.cons_eq_cons.1 hfirst).1
      refine congrArg _ (ih hs.of_cons ht.of_cons fun k => ?_)
      have hk := h k
      rw [List.filter_cons, List.filter_cons] at hk
      split at hk
      · exact (List.cons_eq_cons.1 hk).2
      · exact hk

/-- Lists of which at most one is not empty can be joined in any order. -/
theorem flatMap_eq_of_perm {β : Type} {parts : β → List α} {bs bs' : List β} (hperm : bs.Perm bs')
    (h : bs.Pairwise fun b c => parts b = [] ∨ parts c = []) :
    bs.flatMap parts = bs'.flatMap parts := by
  induction hperm with
  | nil => rfl
  | cons b _ ih => rw [List.flatMap_cons, List.flatMap_cons, ih h.of_cons]
  | swap b c bs =>
    rw [List.flatMap_cons, List.flatMap_cons, List.flatMap_cons, List.flatMap_cons]
    rcases List.rel_of_pairwise_cons h List.mem_cons_self with hempty | hempty <;>
      rw [hempty, List.nil_append, List.nil_append]
  | trans hleft _ ihleft ihright =>
    have hsymm {b c : β} (hbc : parts b = [] ∨ parts c = []) : parts c = [] ∨ parts b = [] :=
      hbc.symm
    rw [ihleft h, ihright ((hleft.pairwise_iff hsymm).1 h)]

namespace Arranged

/-- Lists that have the same elements of each key in the same order are sorted alike. -/
theorem unique (hs : Arranged key l s) (ht : Arranged key l' t)
    (h : ∀ k, l.filter (key · = k) = l'.filter (key · = k)) : s = t := by
  refine eq_of_classes hs.ordered ht.ordered fun k => ?_
  rw [hs.stable, ht.stable, h]

/-- What is left of a sorted list is what is left of the list, sorted. -/
theorem filter (h : Arranged key l s) (p : α → Bool) : Arranged key (l.filter p) (s.filter p) := by
  refine ⟨h.perm.filter p, h.ordered.filter p, fun k => ?_⟩
  rw [List.filter_comm, h.stable, List.filter_comm]

/-- Lists with no key in common are sorted alike, in whatever order they are joined. -/
theorem joined {β : Type} {parts : β → List α} {bs bs' : List β} (hperm : bs.Perm bs')
    (hapart : bs.Pairwise fun b c => ∀ x ∈ parts b, ∀ y ∈ parts c, key x ≠ key y)
    (hs : Arranged key (bs.flatMap parts) s) (ht : Arranged key (bs'.flatMap parts) t) : s = t := by
  refine hs.unique ht fun k => ?_
  rw [List.filter_flatMap, List.filter_flatMap]
  refine flatMap_eq_of_perm hperm (hapart.imp fun {b c} hbc => ?_)
  by_contra hboth
  obtain ⟨hb, hc⟩ := not_or.1 hboth
  obtain ⟨x, hx⟩ := List.exists_mem_of_ne_nil _ hb
  obtain ⟨y, hy⟩ := List.exists_mem_of_ne_nil _ hc
  obtain ⟨hx, hxk⟩ := List.mem_filter.1 hx
  obtain ⟨hy, hyk⟩ := List.mem_filter.1 hy
  exact hbc x hx y hy ((of_decide_eq_true hxk).trans (of_decide_eq_true hyk).symm)

end Arranged

end MessageLint
