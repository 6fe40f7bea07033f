-- SUMMARY: What is left of a path below a folder ends with the last components of the path.
import Mathlib
import MessageLint.Path

/-!
# Components of paths

A path is cut at its slashes, and a piece that is empty or `.` is no component unless the path starts with
it. Cutting a path at a slash cuts its components (`innerComponents_append`), and what is trimmed off a
text is made of slashes and `.` pieces only. So when a folder is taken off the front of a path, its
components are what is taken off, however the slashes were written (`components_of_strip?`).
-/

namespace MessageLint

theorem splitOn_eq {α : Type} [BEq α] (separator : α) (xs : List α) :
    splitOn separator xs = xs.splitOn separator := by
  induction xs with
  | nil => rw [splitOn, List.splitOn_nil]
  | cons x xs ih =>
    rw [splitOn, List.splitOn_cons_eq_if_modifyHead, ih]
    split
    · rfl
    · obtain ⟨piece, pieces, hsplit⟩ :=
        List.exists_cons_of_ne_nil (List.splitOn_ne_nil separator xs)
      rw [hsplit]
      rfl

namespace Path

variable {text piece rest : List Char}

-- ---------------------------------------------------------------------------
-- Components inside a path
-- ---------------------------------------------------------------------------

/-- The components of a text that stands inside a path, where a first slash or `.` is none. -/
def innerComponents (text : List Char) : List PathComponent :=
  (splitOn '/' text).filterMap component?

theorem innerComponents_append (text rest : List Char) :
    innerComponents (text ++ '/' :: rest) = innerComponents text ++ innerComponents rest := by
  rw [innerComponents, splitOn_eq, List.splitOn_append_cons_self, List.filterMap_append, ← splitOn_eq,
    ← splitOn_eq]
  rfl

theorem innerComponents_piece (h : '/' ∉ piece) :
    innerComponents piece = (component? piece).toList := by
  rw [innerComponents, splitOn_eq, List.splitOn_eq_singleton h]
  cases hpiece : component? piece <;> simp [hpiece]

@[simp] theorem innerComponents_nil : innerComponents [] = [] := rfl

@[simp] theorem innerComponents_dot : innerComponents ['.'] = [] := rfl

@[simp] theorem innerComponents_slash (text : List Char) :
    innerComponents ('/' :: text) = innerComponents text :=
  innerComponents_append [] text

@[simp] theorem innerComponents_dot_slash (text : List Char) :
    innerComponents ('.' :: '/' :: text) = innerComponents text :=
  innerComponents_append ['.'] text

theorem innerComponents_concat_slash (text : List Char) :
    innerComponents (text ++ ['/']) = innerComponents text := by
  rw [innerComponents_append, innerComponents_nil, List.append_nil]

theorem innerComponents_concat_dot (text : List Char) :
    innerComponents (text ++ ['/', '.']) = innerComponents text := by
  rw [innerComponents_append, innerComponents_dot, List.append_nil]

/-- What a path starts with is no component inside it. -/
theorem innerComponents_start? (path : List Char) :
    innerComponents (start? path).2 = innerComponents path := by
  fun_cases start? path <;> simp

theorem componentsOf_eq (path : List Char) :
    componentsOf path = (start? path).1.toList ++ innerComponents path := by
  rw [← innerComponents_start?]
  rfl

-- ---------------------------------------------------------------------------
-- Trimming
-- ---------------------------------------------------------------------------

theorem innerComponents_trimStart (text : List Char) :
    innerComponents (trimStart text) = innerComponents text := by
  fun_induction trimStart text <;> simp [*]

/-- Nothing that starts a path is left in front. -/
theorem start?_trimStart (text : List Char) : (start? (trimStart text)).1 = none := by
  fun_induction trimStart text with
  | case1 text ih => exact ih
  | case2 => rfl
  | case3 text ih => exact ih
  | case4 text hslash hdot hcurrent => simp_all [start?]

theorem innerComponents_trimReversed (keep : Nat) (reversed : List Char) :
    innerComponents (trimReversed keep reversed).reverse = innerComponents reversed.reverse := by
  fun_induction trimReversed keep reversed with
  | case1 r hkeep ih => rw [ih, List.reverse_cons, innerComponents_concat_slash]
  | case2 => rfl
  | case3 r hkeep ih =>
    rw [ih, List.reverse_cons, List.reverse_cons, List.append_assoc]
    exact (innerComponents_concat_dot r.reverse).symm
  | case4 r hkeep =>
    rw [List.reverse_cons, List.reverse_cons, List.reverse_cons, List.append_assoc,
      innerComponents_concat_slash]
    exact (innerComponents_concat_dot r.reverse).symm
  | case5 => rfl

theorem innerComponents_trimStop (keep : Nat) (text : List Char) :
    innerComponents (trimStop keep text) = innerComponents text := by
  rw [trimStop, innerComponents_trimReversed, List.reverse_reverse]

theorem trimReversed_suffix (keep : Nat) (reversed : List Char) :
    trimReversed keep reversed <:+ reversed := by
  fun_induction trimReversed keep reversed with
  | case1 r hkeep ih => exact ih.trans (List.suffix_cons ..)
  | case2 => exact List.suffix_rfl
  | case3 r hkeep ih => exact ih.trans ((List.suffix_cons ..).trans (List.suffix_cons ..))
  | case4 r hkeep => exact List.suffix_cons ..
  | case5 => exact List.suffix_rfl

theorem trimReversed_one_ne_nil {reversed : List Char} (h : reversed ≠ []) :
    trimReversed 1 reversed ≠ [] := by
  fun_induction trimReversed 1 reversed with
  | case1 r hkeep ih => exact ih (List.ne_nil_of_length_pos hkeep)
  | case2 => exact h
  | case3 r hkeep ih => exact ih (List.ne_nil_of_length_pos hkeep)
  | case4 r hkeep => exact List.cons_ne_nil '/' r
  | case5 => exact h

/-- What is cut off the end of a text is nothing or starts with a slash. -/
def IsCut (cut : List Char) : Prop := cut = [] ∨ cut.head? = some '/'

theorem IsCut.append_slash {cut : List Char} (h : IsCut cut) (more : List Char) :
    IsCut (cut ++ '/' :: more) := by
  refine .inr ?_
  rcases h with rfl | h
  · rfl
  · rw [List.head?_append, h]
    rfl

/-- Where nothing has to stay, trimming cuts at a slash. -/
theorem trimReversed_zero (reversed : List Char) :
    ∃ cut, reversed.reverse = (trimReversed 0 reversed).reverse ++ cut ∧ IsCut cut := by
  fun_induction trimReversed 0 reversed with
  | case1 r _ ih =>
    obtain ⟨cut, hcut, hslash⟩ := ih
    exact ⟨cut ++ ['/'], by rw [List.reverse_cons, hcut, List.append_assoc], hslash.append_slash []⟩
  | case2 r h => exact absurd (Nat.zero_le _) h
  | case3 r _ ih =>
    obtain ⟨cut, hcut, hslash⟩ := ih
    refine ⟨cut ++ ['/', '.'], ?_, hslash.append_slash ['.']⟩
    rw [List.reverse_cons, List.reverse_cons, hcut, List.append_assoc, List.append_assoc]
    rfl
  | case4 r h => exact absurd (Nat.zero_le _) h
  | case5 reversed => exact ⟨[], (List.append_nil _).symm, .inl rfl⟩

theorem trimStop_zero (text : List Char) : ∃ cut, text = trimStop 0 text ++ cut ∧ IsCut cut := by
  simpa [trimStop] using trimReversed_zero text.reverse

/-- A text that starts no path starts none when it is trimmed. -/
theorem start?_trimStop_zero (h : (start? text).1 = none) : (start? (trimStop 0 text)).1 = none := by
  obtain ⟨cut, htext, hcut⟩ := trimStop_zero text
  generalize trimStop 0 text = trimmed at htext ⊢
  subst htext
  fun_cases start? trimmed with
  | case1 body => cases h
  | case2 =>
    rcases hcut with rfl | hslash
    · cases h
    · obtain ⟨body, rfl⟩ := List.head?_eq_some_iff.1 hslash
      cases h
  | case3 body => cases h
  | case4 => rfl

/-- A path keeps its start when it is trimmed. -/
theorem start?_trimStop_one {c : PathComponent} (h : (start? text).1 = some c) :
    (start? (trimStop 1 text)).1 = some c := by
  obtain ⟨first, trimmed, htrimmed⟩ : ∃ first trimmed, trimStop 1 text = first :: trimmed := by
    refine List.exists_cons_of_ne_nil fun hnil => ?_
    refine trimReversed_one_ne_nil ?_ (List.reverse_eq_nil_iff.1 hnil)
    rintro hnil
    rw [List.reverse_eq_nil_iff.1 hnil] at h
    cases h
  obtain ⟨cut, htext⟩ : trimStop 1 text <+: text := by
    rw [← List.reverse_suffix, trimStop, List.reverse_reverse]
    exact trimReversed_suffix 1 text.reverse
  rw [htrimmed, List.cons_append] at htext
  rw [htrimmed]
  subst htext
  generalize htext : first :: (trimmed ++ cut) = text at h
  revert h
  fun_cases start? text with
  | case1 body =>
    obtain ⟨rfl, -⟩ := List.cons.inj htext
    exact id
  | case2 =>
    obtain ⟨rfl, hrest⟩ := List.cons.inj htext
    rw [(List.append_eq_nil_iff.1 hrest).1]
    exact id
  | case3 body =>
    obtain ⟨rfl, hrest⟩ := List.cons.inj htext
    cases trimmed with
    | nil => exact id
    | cons second trimmed =>
      obtain ⟨rfl, -⟩ := List.cons.inj hrest
      exact id
  | case4 => exact fun h => absurd h (Option.some_ne_none c).symm

/-- The end of a path is not among its components. -/
theorem componentsOf_trimStop (path : List Char) :
    componentsOf (trimStop (if (start? path).1.isSome then 1 else 0) path) = componentsOf path := by
  rw [componentsOf_eq, componentsOf_eq, innerComponents_trimStop]
  congr 2
  cases hstart : (start? path).1 with
  | none => exact start?_trimStop_zero hstart
  | some c => exact start?_trimStop_one hstart

-- ---------------------------------------------------------------------------
-- Taking a path off the front
-- ---------------------------------------------------------------------------

/-- The first piece of a text, and what stands behind the slash that ends it. -/
theorem innerComponents_takeWhile (text : List Char) :
    innerComponents text = (component? (text.takeWhile (· ≠ '/'))).toList ++
      innerComponents (text.drop ((text.takeWhile (· ≠ '/')).length + 1)) := by
  have hpiece : '/' ∉ text.takeWhile (· ≠ '/') := fun h => by
    simpa using List.mem_takeWhile_imp h
  have hsplit := List.takeWhile_append_dropWhile (p := (· ≠ '/')) (l := text)
  generalize text.takeWhile (· ≠ '/') = piece at hpiece hsplit ⊢
  cases hrest : text.dropWhile (· ≠ '/') with
  | nil =>
    rw [hrest, List.append_nil] at hsplit
    subst hsplit
    rw [innerComponents_piece hpiece, List.drop_of_length_le (Nat.le_succ _), innerComponents_nil,
      List.append_nil]
  | cons ch rest =>
    obtain rfl : ch = '/' := by
      have := List.head?_dropWhile_not (fun ch : Char => decide (ch ≠ '/')) text
      rw [hrest] at this
      simpa using this
    rw [hrest] at hsplit
    rw [← hsplit, innerComponents_append, innerComponents_piece hpiece]
    simp

theorem innerComponents_of_dropComponents {cs : List PathComponent}
    (h : dropComponents cs text = some rest) : innerComponents text = cs ++ innerComponents rest := by
  induction cs generalizing text with
  | nil =>
    obtain rfl := Option.some.inj h
    rfl
  | cons c cs ih =>
    simp only [dropComponents] at h
    split at h
    · next hc =>
      rw [← innerComponents_trimStart, innerComponents_takeWhile, hc, ih h]
      rfl
    · cases h

theorem components_of_cut {cs : List PathComponent} {rest : String}
    (h : strip?.cut cs text = some rest) : innerComponents text = cs ++ components rest := by
  obtain ⟨left, hleft, rfl⟩ := Option.map_eq_some_iff.1 h
  rw [innerComponents_of_dropComponents hleft, components, String.toList_ofList, componentsOf_eq,
    innerComponents_trimStop, innerComponents_trimStart,
    start?_trimStop_zero (start?_trimStart left)]
  rfl

/-- A path that starts with another one has its components in front of those of the rest. -/
theorem components_of_strip? {path front rest : String} (h : strip? path front = some rest) :
    components path = components front ++ components rest := by
  unfold strip? at h
  generalize hstart : start? path.toList = start at h
  obtain ⟨first, body⟩ := start
  have hpath : components path = first.toList ++ innerComponents body := by
    rw [components, componentsOf, hstart]
    rfl
  generalize hfront : components front = ds at h ⊢
  rw [hpath]
  match first, ds, h with
  | first, [], h =>
    obtain rfl := Option.some.inj h
    have hkeep : first = (start? path.toList).1 := by rw [hstart]
    rw [← hpath, components, components, String.toList_ofList, hkeep]
    exact (componentsOf_trimStop path.toList).symm
  | some c, d :: ds, h =>
    simp only at h
    split at h
    · next heq =>
      rw [components_of_cut h, heq]
      rfl
    · cases h
  | none, d :: ds, h => exact components_of_cut h

/-- What a path is as seen from a folder ends with some of the last components of the path. -/
theorem components_relativeTo_suffix (path root : String) :
    components (relativeTo path root) <:+ components path := by
  rw [relativeTo]
  cases h : strip? path root with
  | none => exact List.suffix_rfl
  | some rest =>
    rw [components_of_strip? h]
    exact List.suffix_append ..

end Path

end MessageLint
