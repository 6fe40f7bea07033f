-- SUMMARY: Which texts name a rule: its code in any case or its name, between white space.
import Mathlib
import MessageLint.Rule

/-!
# Names of rules

Configurations and filters name rules by texts. `Rule.NamedBy` says which texts name a rule without looking
for one: white space, a spelling of the rule, white space. `Rule.ofText` trims and then takes the first rule
of the catalogue that is spelled so. The two agree because no spelling holds white space
(`Rule.Spelled.not_isWhiteSpace`) and no two rules have one in common (`Rule.Spelled.unique`).
-/

namespace MessageLint

-- ---------------------------------------------------------------------------
-- Trimming
-- ---------------------------------------------------------------------------

section Trim

variable {α : Type} {p : α → Bool} {before core after : List α}

theorem trimBoth_append (hbefore : ∀ a ∈ before, p a) (hafter : ∀ a ∈ after, p a)
    (hne : core ≠ []) (hcore : ∀ a ∈ core, p a = false) :
    trimBoth p (before ++ (core ++ after)) = core := by
  have hkept {more : List α} : ∀ {xs : List α}, xs ≠ [] → (∀ a ∈ xs, p a = false) →
      (xs ++ more).dropWhile p = xs ++ more := by
    intro xs hxs hall
    obtain ⟨a, as, rfl⟩ := List.exists_cons_of_ne_nil hxs
    exact List.dropWhile_cons_of_neg (by simp [hall a])
  have hreverse : ∀ a ∈ core.reverse, p a = false := fun a ha => hcore a (List.mem_reverse.1 ha)
  rw [trimBoth, List.dropWhile_append_of_pos hbefore, hkept hne hcore, List.reverse_append,
    List.dropWhile_append_of_pos fun a ha => hafter a (List.mem_reverse.1 ha),
    ← List.append_nil core.reverse, hkept (by simpa using hne) hreverse, List.append_nil,
    List.reverse_reverse]

theorem exists_trimBoth (p : α → Bool) (xs : List α) : ∃ before after,
    xs = before ++ (trimBoth p xs ++ after) ∧ (∀ a ∈ before, p a) ∧ ∀ a ∈ after, p a := by
  refine ⟨xs.takeWhile p, ((xs.dropWhile p).reverse.takeWhile p).reverse, ?_, ?_, ?_⟩
  · rw [trimBoth, ← List.reverse_append, List.takeWhile_append_dropWhile, List.reverse_reverse,
      List.takeWhile_append_dropWhile]
  · exact fun a => List.mem_takeWhile_imp
  · exact fun a ha => List.mem_takeWhile_imp (List.mem_reverse.1 ha)

end Trim

namespace Rule

variable {rule rule' : Rule} {text : List Char}

-- ---------------------------------------------------------------------------
-- The catalogue
-- ---------------------------------------------------------------------------

theorem find_code (rule : Rule) : all.find? (·.code == rule.code) = some rule := by
  cases rule <;> decide +kernel

theorem mem_all (rule : Rule) : rule ∈ all := List.mem_of_find?_eq_some rule.find_code

theorem code_injective : Function.Injective code := fun a b h =>
  Option.some.inj (by rw [← a.find_code, h, b.find_code])

/-- The code in lower case, as texts are compared with it. -/
def lowerCode (rule : Rule) : List Char := rule.code.toList.map Char.toLower

theorem lowerCode_injective : Function.Injective lowerCode := fun a b h =>
  List.inj_on_of_nodup_map (by decide +kernel : (all.map lowerCode).Nodup) a.mem_all b.mem_all h

theorem name_injective : Function.Injective name := fun a b h =>
  List.inj_on_of_nodup_map (by simp [all, name] : (all.map name).Nodup) a.mem_all b.mem_all h

theorem lowerCode_chars (rule : Rule) : ∀ ch ∈ rule.lowerCode, ch.isLower || ch.isDigit := by
  rw [← List.all_eq_true]
  cases rule <;> decide +kernel

theorem zero_mem_lowerCode (rule : Rule) : '0' ∈ rule.lowerCode := by
  cases rule <;> decide +kernel

theorem name_chars (rule : Rule) : ∀ ch ∈ rule.name.toList, ch.isLower || ch == '-' := by
  rw [← List.all_eq_true]
  cases rule <;> decide +kernel

theorem name_ne_nil (rule : Rule) : rule.name.toList ≠ [] := by
  cases rule <;> decide +kernel

-- ---------------------------------------------------------------------------
-- Spellings
-- ---------------------------------------------------------------------------

/-- The code of the rule, each letter of it in any case, or its exact name. -/
def Spelled (rule : Rule) (text : List Char) : Prop :=
  text.map Char.toLower = rule.lowerCode ∨ text = rule.name.toList

instance (rule : Rule) (text : List Char) : Decidable (rule.Spelled text) :=
  inferInstanceAs (Decidable (_ ∨ _))

theorem isNamed_iff {text : String} : rule.isNamed text ↔ rule.Spelled text.toList := by
  rw [isNamed, Bool.or_eq_true, equalIgnoringCase, beq_iff_eq, beq_iff_eq, Spelled, String.toList_inj,
    eq_comm, @eq_comm _ rule.name]
  rfl

theorem toLower_of_not_isUpper {ch : Char} (h : ch.isUpper = false) : ch.toLower = ch :=
  dif_neg fun hupper => Bool.eq_false_iff.1 h (by simpa [Char.isUpper] using hupper)

/-- White space is no character of a name, and no letter or digit. -/
theorem chars_of_isWhiteSpace {ch : Char} (h : isWhiteSpace ch) :
    ch.isUpper = false ∧ ch.isLower = false ∧ ch.isDigit = false ∧ ch ≠ '-' := by
  simp only [isWhiteSpace, Bool.or_eq_true, Bool.and_eq_true, decide_eq_true_eq, beq_iff_eq,
    Char.le_def, UInt32.le_iff_toNat_le, Char.ext_iff, ← UInt32.toNat_inj] at h
  simp [Char.isUpper, Char.isLower, Char.isDigit, UInt32.le_iff_toNat_le, Char.ext_iff,
    ← UInt32.toNat_inj] at h ⊢
  omega

theorem Spelled.ne_nil (h : rule.Spelled text) : text ≠ [] := by
  rintro rfl
  rcases h with h | h
  · exact List.not_mem_nil (h ▸ rule.zero_mem_lowerCode)
  · exact rule.name_ne_nil h.symm

theorem Spelled.not_isWhiteSpace (h : rule.Spelled text) :
    ∀ ch ∈ text, isWhiteSpace ch = false := by
  intro ch hch
  refine Bool.eq_false_iff.2 fun hspace => ?_
  obtain ⟨hupper, hlower, hdigit, hdash⟩ := chars_of_isWhiteSpace hspace
  rcases h with h | rfl
  · have hcode : ch ∈ rule.lowerCode := by
      rw [← h, ← toLower_of_not_isUpper hupper]
      exact List.mem_map_of_mem hch
    simpa [hlower, hdigit] using rule.lowerCode_chars ch hcode
  · simpa [hlower, hdash] using rule.name_chars ch hch

/-- No name is a code in some case: codes have a digit. -/
theorem map_toLower_name_ne (rule rule' : Rule) :
    rule.name.toList.map Char.toLower ≠ rule'.lowerCode := by
  intro h
  obtain ⟨ch, hch, hzero⟩ := List.mem_map.1 (h ▸ rule'.zero_mem_lowerCode)
  have hname := rule.name_chars ch hch
  have hupper : ch.isUpper = false := by
    rcases Bool.or_eq_true_iff.1 hname with hlower | hdash
    · simp [Char.isLower, Char.isUpper, UInt32.le_iff_toNat_le] at hlower ⊢
      omega
    · rw [beq_iff_eq.1 hdash]; rfl
  rw [toLower_of_not_isUpper hupper] at hzero
  rw [hzero] at hname
  exact absurd hname (by decide)

/-- No two rules have a spelling in common. -/
theorem Spelled.unique (h : rule.Spelled text) (h' : rule'.Spelled text) : rule = rule' := by
  rcases h with h | rfl <;> rcases h' with h' | h'
  · exact lowerCode_injective (h.symm.trans h')
  · exact absurd (h' ▸ h) (rule'.map_toLower_name_ne rule)
  · exact absurd h' (rule.map_toLower_name_ne rule')
  · exact name_injective (String.toList_inj.1 h')

-- ---------------------------------------------------------------------------
-- Texts
-- ---------------------------------------------------------------------------

variable {text : String}

/-- The text is a spelling of the rule with white space around it. -/
def NamedBy (rule : Rule) (text : String) : Prop :=
  ∃ before spelling after, text.toList = before ++ (spelling ++ after) ∧ rule.Spelled spelling ∧
    (∀ ch ∈ before, isWhiteSpace ch) ∧ ∀ ch ∈ after, isWhiteSpace ch

theorem namedBy_iff : rule.NamedBy text ↔ rule.Spelled (trimWhiteSpace text).toList := by
  rw [trimWhiteSpace, String.toList_ofList]
  constructor
  · rintro ⟨before, spelling, after, htext, hspelled, hbefore, hafter⟩
    rw [htext, trimBoth_append hbefore hafter hspelled.ne_nil hspelled.not_isWhiteSpace]
    exact hspelled
  · intro h
    obtain ⟨before, after, htext, hbefore, hafter⟩ := exists_trimBoth isWhiteSpace text.toList
    exact ⟨before, _, after, htext, h, hbefore, hafter⟩

/-- No text names two rules. -/
theorem NamedBy.unique (h : rule.NamedBy text) (h' : rule'.NamedBy text) : rule = rule' :=
  (namedBy_iff.1 h).unique (namedBy_iff.1 h')

/-- The rule that is found under a text is the one that the text names. -/
theorem ofText_eq_ok_iff : ofText text = .ok rule ↔ rule.NamedBy text := by
  rw [namedBy_iff, ← isNamed_iff]
  unfold ofText
  cases hfind : all.find? (·.isNamed (trimWhiteSpace text)) with
  | none =>
    simp only [hfind, reduceCtorEq, false_iff]
    exact fun h => List.find?_eq_none.1 hfind rule rule.mem_all h
  | some found =>
    have hfound := List.find?_some hfind
    simp only [hfind, Except.ok.injEq]
    constructor
    · rintro rfl
      exact hfound
    · exact fun h => (isNamed_iff.1 hfound).unique (isNamed_iff.1 h)

theorem not_namedBy_of_error {e : UnknownRule} (h : ofText text = .error e) : ¬rule.NamedBy text := by
  intro hname
  rw [ofText_eq_ok_iff.2 hname] at h
  cases h

theorem ofText_toOption (text : String) (rule : Rule) :
    (ofText text).toOption = some rule ↔ rule.NamedBy text := by
  rw [← ofText_eq_ok_iff]
  cases ofText text <;> simp [Except.toOption]

end Rule

end MessageLint
