-- SUMMARY: What a configuration says of each rule, and the rule set it amounts to.
import MessageLint.FileTree
import MessageLint.RuleSet

/-!
# Settings

A configuration maps keys, which name rules, to `RuleSettings`. Several keys may name one rule; they
are taken in the order of their texts, so the last one decides on the exclusions and on the least
length, while one that turns the rule on is enough. Keys that name no rule are left out.
-/

namespace MessageLint

/-- What one key of a configuration says; `none` where it is silent. -/
structure RuleSettings where
  enabled : Option Bool
  disabled : Option Bool
  minLength : Option Nat
  exclusions : Exclusions
  deriving DecidableEq, Repr, Inhabited

namespace RuleSettings

def silent : RuleSettings := ⟨none, none, none, .none⟩

/-- Whether the rule is turned on. A rule on a feature speaks of the feature: where that is
disabled, its use is reported. -/
def activates (s : RuleSettings) (rule : Rule) : Bool :=
  match rule.category with
  | .features => (s.disabled.or s.enabled).getD false
  | _ => s.enabled.getD false

end RuleSettings

-- ---------------------------------------------------------------------------
-- Configurations
-- ---------------------------------------------------------------------------

/-- Adds an entry where its key belongs in an ascending list; an entry with that key is replaced. -/
def insertKey (key : String) (s : RuleSettings) :
    List (String × RuleSettings) → List (String × RuleSettings)
  | [] => [(key, s)]
  | e :: es =>
    if key < e.1 then (key, s) :: e :: es
    else if key = e.1 then (key, s) :: es
    else e :: insertKey key s es

theorem mem_insertKey {key : String} {s : RuleSettings} {e : String × RuleSettings}
    {es : List (String × RuleSettings)} (h : e ∈ insertKey key s es) : e = (key, s) ∨ e ∈ es := by
  induction es with
  | nil => simpa [insertKey] using h
  | cons d ds ih =>
    simp only [insertKey] at h
    split at h
    · simpa using h
    · split at h <;> simp only [List.mem_cons] at h ⊢ <;> grind

theorem pairwise_insertKey (key : String) (s : RuleSettings) {es : List (String × RuleSettings)}
    (h : es.Pairwise (·.1 < ·.1)) : (insertKey key s es).Pairwise (·.1 < ·.1) := by
  induction es with
  | nil => simp [insertKey]
  | cons d ds ih =>
    obtain ⟨first, rest⟩ := List.pairwise_cons.1 h
    simp only [insertKey]
    split
    · next lt =>
      refine List.pairwise_cons.2 ⟨fun e he => ?_, h⟩
      rcases List.mem_cons.1 he with rfl | he
      · exact lt
      · exact String.lt_trans lt (first e he)
    · next ge =>
      split
      · next eq => exact List.pairwise_cons.2 ⟨fun e he => eq ▸ first e he, rest⟩
      · next ne =>
        refine List.pairwise_cons.2 ⟨fun e he => ?_, ih rest⟩
        rcases mem_insertKey he with rfl | he
        · exact Decidable.byContradiction fun nlt =>
            ne (String.le_antisymm (String.not_lt.1 nlt) (String.not_lt.1 ge))
        · exact first e he

/-- A configuration: each key once, in ascending order. -/
structure Settings where
  entries : List (String × RuleSettings)
  ascending : entries.Pairwise (·.1 < ·.1)

namespace Settings

def empty : Settings := ⟨[], .nil⟩

/-- Sets what is said under a key. -/
def insert (s : Settings) (key : String) (rule : RuleSettings) : Settings :=
  ⟨insertKey key rule s.entries, pairwise_insertKey key rule s.ascending⟩

/-- The configuration with these entries; of entries with one key the last counts. -/
def ofList (entries : List (String × RuleSettings)) : Settings :=
  entries.foldl (fun s (key, rule) => s.insert key rule) empty

end Settings

-- ---------------------------------------------------------------------------
-- Rule sets
-- ---------------------------------------------------------------------------

inductive SettingsError where
  | unreadable (path : String) (fault : FileFault)
  /-- The text is no configuration. -/
  | malformed
  /-- The rule on the length of identifiers is on, but no length is given. -/
  | lengthMissing
  deriving DecidableEq, Repr, Inhabited

namespace SettingsError

/-- What is wrong; of a malformed text no more than that it is one. -/
def message : SettingsError → String
  | unreadable path fault => "Failed to read config file " ++ path ++ ": " ++ fault.message
  | malformed => "Failed to parse config: "
  | lengthMissing => "Invalid config: ID02 is enabled but has no min_length"

/-- The message with those of the errors behind it, outermost first. -/
def chain (e : SettingsError) : List String :=
  e.message ::
    match e with
    | unreadable _ fault => [fault.message]
    | _ => []

end SettingsError

namespace RuleSettings

/-- Adds to a rule set what the settings say of one rule. -/
def apply (s : RuleSettings) (rule : Rule) (set : RuleSet) : Except SettingsError RuleSet :=
  let set := set.exclude rule s.exclusions
  if s.activates rule then
    match rule, s.minLength with
    | .identifierLength, some n => .ok ((set.withMinLength n).enable rule)
    | .identifierLength, none => .error .lengthMissing
    | _, _ => .ok (set.enable rule)
  else
    .ok set

end RuleSettings

/-- Adds what is said under one key, if that names a rule. -/
def applyKey (set : RuleSet) (entry : String × RuleSettings) : Except SettingsError RuleSet :=
  match Rule.ofText entry.1 with
  | .ok rule => entry.2.apply rule set
  | .error _ => .ok set

/-- The rule set that a configuration amounts to. -/
def Settings.ruleSet (s : Settings) : Except SettingsError RuleSet :=
  s.entries.foldlM applyKey .empty

end MessageLint
