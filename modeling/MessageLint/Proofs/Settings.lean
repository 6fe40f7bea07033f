-- SUMMARY: The rule set of a configuration, said rule by rule and without an order of reading.
import MessageLint.Settings
import MessageLint.Proofs.Basic
import MessageLint.Proofs.Naming
import MessageLint.Proofs.Report

/-!
# Resolved settings

Keys that are spelled differently may name one rule. `Resolves` says what they come to: one entry that
turns the rule on is enough, while exclusions and the least length are those of the key with the last
bytes (`SaidLast`). The rule set is built key by key, and the last theorem says that it resolves the
configuration unless an entry lacks a length.
-/

namespace MessageLint

variable {es : List (String × RuleSettings)} {entry : String × RuleSettings} {rule : Rule}
  {set : RuleSet}

-- ---------------------------------------------------------------------------
-- What the entries say
-- ---------------------------------------------------------------------------

namespace RuleSettings

/-- A rule on a feature is turned on by its being disabled, where the settings speak of that; any other rule
by its being enabled. -/
def TurnsOn (s : RuleSettings) (rule : Rule) : Prop :=
  if rule.category = .features then
    s.disabled = some true ∨ s.disabled = none ∧ s.enabled = some true
  else
    s.enabled = some true

theorem activates_iff (s : RuleSettings) (rule : Rule) : s.activates rule ↔ s.TurnsOn rule := by
  have getD_iff (o : Option Bool) : o.getD false = true ↔ o = some true := by
    cases o <;> simp
  unfold activates TurnsOn
  cases rule.category with
  | features =>
    rw [if_pos rfl, getD_iff]
    cases s.disabled <;> simp
  | comments => exact getD_iff _
  | identifiers => exact getD_iff _
  | text => exact getD_iff _

end RuleSettings

/-- The key of the entry names the rule. -/
def EntryNames (rule : Rule) (entry : String × RuleSettings) : Prop := rule.NamedBy entry.1

/-- The entry is on the rule and turns it on. -/
def EntryTurnsOn (rule : Rule) (entry : String × RuleSettings) : Prop :=
  rule.NamedBy entry.1 ∧ entry.2.TurnsOn rule

/-- The entry turns on the rule on the length of identifiers, but gives none. -/
def EntryLacksLength (entry : String × RuleSettings) : Prop :=
  EntryTurnsOn .identifierLength entry ∧ entry.2.minLength = none

/-- Of the entries with `p`, the one whose key has the last bytes decides: `value` is what `say` reads off
its settings, and `silent` if there is no such entry. -/
def SaidLast {β : Type} (es : List (String × RuleSettings)) (p : String × RuleSettings → Prop)
    (say : RuleSettings → β) (silent value : β) : Prop :=
  (∃ entry ∈ es, p entry ∧ value = say entry.2 ∧
      ∀ other ∈ es, p other → other = entry ∨ utf8Bytes other.1 < utf8Bytes entry.1) ∨
    (∀ entry ∈ es, ¬p entry) ∧ value = silent

/-- The rule set says of each rule what the entries say of it. -/
structure Resolves (es : List (String × RuleSettings)) (set : RuleSet) : Prop where
  enabled : ∀ rule, set.isEnabled rule ↔ ∃ entry ∈ es, EntryTurnsOn rule entry
  exclusions : ∀ rule, SaidLast es (EntryNames rule) (·.exclusions) .none (set.exclusions rule)
  minLength : SaidLast es (EntryTurnsOn .identifierLength) (·.minLength) (some 0) (some set.minLength)

-- ---------------------------------------------------------------------------
-- One more key
-- ---------------------------------------------------------------------------

namespace SaidLast

variable {β : Type} {p : String × RuleSettings → Prop} {say : RuleSettings → β} {silent value : β}

/-- A later entry decides. -/
theorem concat (hlater : ∀ other ∈ es, other.1 < entry.1) (hp : p entry) :
    SaidLast (es ++ [entry]) p say silent (say entry.2) := by
  refine .inl ⟨entry, by simp, hp, rfl, fun other hother _ => ?_⟩
  rcases List.mem_append.1 hother with h | h
  · exact .inr (lt_iff_utf8Bytes.1 (hlater other h))
  · exact .inl (List.mem_singleton.1 h)

theorem concat_of_not (h : SaidLast es p say silent value) (hp : ¬p entry) :
    SaidLast (es ++ [entry]) p say silent value := by
  have hmem {other} (hother : other ∈ es ++ [entry]) (ho : p other) : other ∈ es := by
    rcases List.mem_append.1 hother with h | h
    · exact h
    · exact absurd (List.mem_singleton.1 h ▸ ho) hp
  rcases h with ⟨last, hlast, hplast, hvalue, hbound⟩ | ⟨hnone, hvalue⟩
  · exact .inl ⟨last, List.mem_append_left _ hlast, hplast, hvalue,
      fun other hother ho => hbound other (hmem hother ho) ho⟩
  · exact .inr ⟨fun other hother ho => hnone other (hmem hother ho) ho, hvalue⟩

end SaidLast

theorem exists_mem_concat {p : String × RuleSettings → Prop} :
    (∃ other ∈ es ++ [entry], p other) ↔ (∃ other ∈ es, p other) ∨ p entry := by
  simp only [List.mem_append, List.mem_singleton, or_and_right, exists_or, exists_eq_left]

/-- Nothing is said so far. -/
theorem Resolves.nil : Resolves [] .empty where
  enabled _ := by simp [RuleSet.empty]
  exclusions _ := .inr ⟨by simp, rfl⟩
  minLength := .inr ⟨by simp, rfl⟩

/-- What the settings under a key make of a rule set, unless they lack a length. -/
theorem RuleSettings.apply_eq {s : RuleSettings} (set : RuleSet)
    (h : rule = .identifierLength → s.activates rule → s.minLength ≠ none) :
    s.apply rule set = .ok
      { isEnabled := fun r => r == rule && s.activates rule || set.isEnabled r
        exclusions := fun r => if r = rule then s.exclusions else set.exclusions r
        minLength :=
          if rule = .identifierLength ∧ s.activates rule then s.minLength.getD 0
          else set.minLength } := by
  unfold apply
  cases hon : s.activates rule with
  | false => simp [RuleSet.exclude]
  | true =>
    by_cases hrule : rule = .identifierLength
    · subst hrule
      obtain ⟨n, hn⟩ := Option.ne_none_iff_exists'.1 (h rfl hon)
      simp [hn, RuleSet.enable, RuleSet.exclude, RuleSet.withMinLength]
    · simp [hrule, RuleSet.enable, RuleSet.exclude]

/-- A key that names no rule says nothing. -/
theorem Resolves.concat_unnamed (h : Resolves es set) (hentry : ∀ rule : Rule, ¬rule.NamedBy entry.1) :
    Resolves (es ++ [entry]) set where
  enabled rule := by
    rw [h.enabled, exists_mem_concat, or_iff_left fun hon => hentry rule hon.1]
  exclusions rule := (h.exclusions rule).concat_of_not (hentry rule)
  minLength := h.minLength.concat_of_not fun hon => hentry _ hon.1

/-- A key that names a rule speaks of that rule only, and after all keys before it. -/
theorem Resolves.concat (h : Resolves es set) (hlater : ∀ other ∈ es, other.1 < entry.1)
    (hname : rule.NamedBy entry.1) (hlength : ¬EntryLacksLength entry) :
    ∃ set', entry.2.apply rule set = .ok set' ∧ Resolves (es ++ [entry]) set' := by
  have hof (r : Rule) : r.NamedBy entry.1 ↔ r = rule :=
    ⟨fun hr => hr.unique hname, fun hr => hr ▸ hname⟩
  have hon (r : Rule) : EntryTurnsOn r entry ↔ r = rule ∧ entry.2.activates rule := by
    rw [EntryTurnsOn, hof, RuleSettings.activates_iff]
    exact and_congr_right fun hr => by rw [hr]
  have hgiven : rule = .identifierLength → entry.2.activates rule → entry.2.minLength ≠ none :=
    fun hrule hactive hnone => hlength ⟨(hon _).2 ⟨hrule.symm, hactive⟩, hnone⟩
  refine ⟨_, RuleSettings.apply_eq set hgiven, ⟨fun r => ?_, fun r => ?_, ?_⟩⟩
  · rw [exists_mem_concat, hon, ← h.enabled, Bool.or_eq_true, Bool.and_eq_true, beq_iff_eq]
    exact or_comm
  · dsimp only
    by_cases hr : r = rule
    · rw [if_pos hr]
      exact .concat hlater ((hof r).2 hr)
    · rw [if_neg hr]
      exact (h.exclusions r).concat_of_not (mt (hof r).1 hr)
  · by_cases hr : Rule.identifierLength = rule ∧ entry.2.activates rule
    · obtain ⟨n, hn⟩ := Option.ne_none_iff_exists'.1 (hgiven hr.1.symm hr.2)
      rw [if_pos ⟨hr.1.symm, hr.2⟩, hn, Option.getD_some, ← hn]
      exact .concat hlater ((hon _).2 hr)
    · rw [if_neg fun hr' => hr ⟨hr'.1.symm, hr'.2⟩]
      exact h.minLength.concat_of_not (mt (hon _).1 hr)

theorem applyKey_unnamed (set : RuleSet) (h : ∀ rule : Rule, ¬rule.NamedBy entry.1) :
    applyKey set entry = .ok set := by
  unfold applyKey
  cases hof : Rule.ofText entry.1 with
  | error e => rfl
  | ok rule => exact absurd (Rule.ofText_eq_ok_iff.1 hof) (h rule)

theorem applyKey_named (set : RuleSet) (h : rule.NamedBy entry.1) :
    applyKey set entry = entry.2.apply rule set := by
  rw [applyKey, Rule.ofText_eq_ok_iff.2 h]

theorem applyKey_lacksLength (set : RuleSet) (h : EntryLacksLength entry) :
    applyKey set entry = .error .lengthMissing := by
  obtain ⟨⟨hname, hon⟩, hnone⟩ := h
  rw [applyKey_named set hname]
  unfold RuleSettings.apply
  dsimp only
  rw [if_pos ((RuleSettings.activates_iff ..).2 hon), hnone]

theorem applyKey_resolves (h : Resolves es set) (hlater : ∀ other ∈ es, other.1 < entry.1)
    (hlength : ¬EntryLacksLength entry) :
    ∃ set', applyKey set entry = .ok set' ∧ Resolves (es ++ [entry]) set' := by
  by_cases hname : ∃ rule : Rule, rule.NamedBy entry.1
  · obtain ⟨rule, hname⟩ := hname
    rw [applyKey_named set hname]
    exact h.concat hlater hname hlength
  · rw [not_exists] at hname
    exact ⟨set, applyKey_unnamed set hname, h.concat_unnamed hname⟩

-- ---------------------------------------------------------------------------
-- All keys
-- ---------------------------------------------------------------------------

/-- Keys in ascending order resolve, up to the first entry that lacks a length. -/
theorem foldlM_applyKey (hes : es.Pairwise (·.1 < ·.1)) :
    (∃ entry ∈ es, EntryLacksLength entry) ∧ es.foldlM applyKey .empty = .error .lengthMissing ∨
      (¬∃ entry ∈ es, EntryLacksLength entry) ∧
        ∃ set, es.foldlM applyKey .empty = .ok set ∧ Resolves es set := by
  induction es using List.reverseRecOn with
  | nil => exact .inr ⟨by simp, _, rfl, .nil⟩
  | append_singleton es entry ih =>
    obtain ⟨hinit, -, hlater⟩ := List.pairwise_append.1 hes
    rw [exists_mem_concat]
    rcases ih hinit with ⟨hlacks, herror⟩ | ⟨hlength, set, hset, hresolves⟩
    · exact .inl ⟨.inl hlacks, foldlM_concat_of_error herror entry⟩
    · rw [foldlM_concat_of_ok hset]
      by_cases hlacks : EntryLacksLength entry
      · exact .inl ⟨.inr hlacks, applyKey_lacksLength set hlacks⟩
      · exact .inr ⟨not_or.2 ⟨hlength, hlacks⟩, applyKey_resolves hresolves
          (fun other hother => hlater other hother entry (List.mem_singleton.2 rfl)) hlacks⟩

/-- Keys that name no rule are passed over. -/
theorem foldlM_applyKey_filter (p : String × RuleSettings → Bool)
    (hp : ∀ entry, p entry ↔ ∃ rule : Rule, rule.NamedBy entry.1) (set : RuleSet) :
    (es.filter p).foldlM applyKey set = es.foldlM applyKey set := by
  induction es generalizing set with
  | nil => rfl
  | cons entry es ih =>
    rw [List.foldlM_cons]
    by_cases hentry : p entry = true
    · rw [List.filter_cons_of_pos hentry, List.foldlM_cons]
      exact bind_congr ih
    · rw [List.filter_cons_of_neg hentry, ih,
        applyKey_unnamed set (not_exists.1 (mt (hp entry).2 hentry))]
      rfl

namespace Settings

variable {s t : Settings}

/-- Some entry turns on the rule on the length of identifiers, but gives none. -/
def LacksLength (s : Settings) : Prop := ∃ entry ∈ s.entries, EntryLacksLength entry

/-- Configurations that differ only in keys that name no rule amount to the same. -/
theorem ruleSet_congr
    (h : ∀ entry : String × RuleSettings, (∃ rule : Rule, rule.NamedBy entry.1) →
      (entry ∈ s.entries ↔ entry ∈ t.entries)) :
    s.ruleSet = t.ruleSet := by
  classical
  let p (entry : String × RuleSettings) : Bool := decide (∃ rule : Rule, rule.NamedBy entry.1)
  have hp (entry : String × RuleSettings) : p entry ↔ ∃ rule : Rule, rule.NamedBy entry.1 :=
    decide_eq_true_iff
  have hascending (u : Settings) : (u.entries.filter p).Pairwise (·.1 < ·.1) := u.ascending.filter p
  have hnodup (u : Settings) : (u.entries.filter p).Nodup :=
    (hascending u).imp fun hlt => ne_of_apply_ne Prod.fst hlt.ne
  have hperm : (s.entries.filter p).Perm (t.entries.filter p) := by
    refine (List.perm_ext_iff_of_nodup (hnodup s) (hnodup t)).2 fun entry => ?_
    rw [List.mem_filter, List.mem_filter]
    exact and_congr_left fun hentry => h entry ((hp entry).1 hentry)
  have heq := hperm.eq_of_pairwise (fun a b _ _ hab hba => absurd hba hab.asymm) (hascending s)
    (hascending t)
  rw [ruleSet, ruleSet, ← foldlM_applyKey_filter p hp, heq, foldlM_applyKey_filter p hp]

/-- No key names two rules. The rule set of a configuration fails for want of a length, and resolves it
otherwise; keys that name no rule make no difference. -/
theorem ruleSet_resolves (s : Settings) :
    (∀ (key : String) (rule rule' : Rule), rule.NamedBy key → rule'.NamedBy key → rule = rule') ∧
      (s.ruleSet = .error .lengthMissing ↔ s.LacksLength) ∧
      (¬s.LacksLength → ∃ set, s.ruleSet = .ok set ∧ Resolves s.entries set) ∧
      ∀ t : Settings, (∀ entry : String × RuleSettings, (∃ rule : Rule, rule.NamedBy entry.1) →
        (entry ∈ s.entries ↔ entry ∈ t.entries)) → s.ruleSet = t.ruleSet := by
  refine ⟨fun _ _ _ h h' => h.unique h', ?_, ?_, fun t => ruleSet_congr⟩
  · rcases foldlM_applyKey s.ascending with ⟨hlacks, herror⟩ | ⟨hlength, set, hset, -⟩
    · exact ⟨fun _ => hlacks, fun _ => herror⟩
    · exact ⟨fun herror => (by cases hset.symm.trans herror), fun hlacks => absurd hlacks hlength⟩
  · intro hlength
    rcases foldlM_applyKey s.ascending with ⟨hlacks, -⟩ | ⟨-, hset⟩
    · exact absurd hlacks hlength
    · exact hset

/-- Three keys name the rule on the length of identifiers. -/
theorem ruleSet_resolves_aliases :
    let s := ofList [(" id02", ⟨some true, none, some 3, .none⟩),
      ("ID02", ⟨some true, none, some 5, .none⟩),
      ("identifier-length", ⟨none, none, none, ⟨["menu.ftl"], []⟩⟩)]
    ¬s.LacksLength ∧ (∃ set, s.ruleSet = .ok set ∧ Resolves s.entries set) ∧
      s.ruleSet = (s.insert "ID99" .silent).ruleSet := by
  intro s
  have hlength : ¬s.LacksLength := by
    rintro ⟨entry, hentry, ⟨-, hon⟩, hnone⟩
    have hgiven : ∀ entry ∈ s.entries, entry.2.enabled ≠ none → entry.2.minLength ≠ none := by
      decide +kernel
    refine hgiven entry hentry (fun henabled => ?_) hnone
    simp [RuleSettings.TurnsOn, Rule.category, henabled] at hon
  have hframe : ∀ entry : String × RuleSettings, (∃ rule : Rule, rule.NamedBy entry.1) →
      (entry ∈ s.entries ↔ entry ∈ (s.insert "ID99" .silent).entries) := by
    have hentries : (s.insert "ID99" .silent).entries = s.entries.insertIdx 2 ("ID99", .silent) := by
      decide +kernel
    have hunknown : Rule.ofText "ID99" = .error ⟨"ID99"⟩ := by decide +kernel
    rintro entry ⟨rule, hrule⟩
    have hne : entry ≠ ("ID99", .silent) := by
      rintro rfl
      exact Rule.not_namedBy_of_error hunknown hrule
    rw [hentries, List.mem_insertIdx (by decide +kernel), or_iff_right hne]
  exact ⟨hlength, (ruleSet_resolves s).2.2.1 hlength, (ruleSet_resolves s).2.2.2 _ hframe⟩

/-- The last key turns the rule off, so the length is that of the key before it. -/
example :
    (ofList [(" id02", ⟨some true, none, some 3, .none⟩),
      ("ID02", ⟨some true, none, some 5, .none⟩),
      ("identifier-length", ⟨none, none, none, ⟨["menu.ftl"], []⟩⟩)]).ruleSet.toOption.map
        (fun set => (set.minLength, set.exclusions .identifierLength)) =
      some (5, ⟨["menu.ftl"], []⟩) := by
  decide +kernel

end Settings

end MessageLint
