-- SUMMARY: A definition is a name and what stands behind it, where nothing is found on identifiers.
import MessageLint.Proofs.Lint.Reach

/-!
# Definitions by their parts

The walk goes from a definition to its name (`Entry.id?`), and then to its value and its attributes
(`Entry.parts`). It enters no other names, so what is found on identifiers is found at the name or at the
definition as a whole.
-/

namespace MessageLint

variable {source : String} {rules : RuleSet} {src : Source} {e : Entry} {id : Identifier}

-- ---------------------------------------------------------------------------
-- Parts
-- ---------------------------------------------------------------------------

/-- The name of a definition. -/
def Entry.id? : Entry → Option Identifier
  | .message m => some m.id
  | .term t => some t.id
  | .comment .. => none

/-- The nodes of a definition that stand behind its name: the value and the attributes. -/
def Entry.parts : Entry → List Node
  | .message m => m.value.toList.map .pattern ++ m.attributes.map .attribute
  | .term t => .pattern t.value :: t.attributes.map .attribute
  | .comment .. => []

theorem Entry.inside_eq (e : Entry) : e.inside = e.id?.toList.map .identifier ++ e.parts := by
  cases e <;> rfl

theorem Entry.identifier_mem_children (h : e.id? = some id) :
    Node.identifier id ∈ (Node.entry e).children := by
  refine e.inside_sublist.subset ?_
  rw [inside_eq, h]
  exact List.mem_cons_self

theorem Entry.mem_children_of_mem_parts {n : Node} (h : n ∈ e.parts) :
    n ∈ (Node.entry e).children := by
  refine e.inside_sublist.subset ?_
  rw [inside_eq]
  exact List.mem_append_right _ h

-- ---------------------------------------------------------------------------
-- Findings on identifiers
-- ---------------------------------------------------------------------------

namespace Node

/-- Whether a node is a name. -/
def isIdentifier : Node → Bool
  | .identifier _ => true
  | _ => false

theorem isIdentifier_of_mem_parts {n : Node} (h : n ∈ e.parts) : n.isIdentifier = false := by
  cases e with
  | message m =>
    rcases List.mem_append.1 h with h | h <;>
      · obtain ⟨_, -, rfl⟩ := List.mem_map.1 h
        rfl
  | term t =>
    rcases List.mem_cons.1 h with rfl | h
    · rfl
    · obtain ⟨_, -, rfl⟩ := List.mem_map.1 h
      rfl
  | comment => cases h

/-- The walk enters no names but those of definitions. -/
theorem isIdentifier_of_mem_inside {n k : Node} (h : k ∈ n.inside) : k.isIdentifier = false := by
  match n with
  | .attribute _ | .variant _ | .inline (.placeable _) =>
    obtain rfl := List.mem_singleton.1 h
    rfl
  | .placeable ⟨e, _⟩ =>
    obtain rfl := List.mem_singleton.1 h
    cases e <;> rfl
  | .pattern _ =>
    obtain ⟨e, -, rfl⟩ := List.mem_map.1 h
    cases e <;> rfl
  | .selection _ =>
    obtain ⟨v, -, rfl⟩ := List.mem_map.1 h
    rfl

theorem category_of_mem_faults {n : Node} (hn : n.isIdentifier = false) {f : Finding}
    (h : f ∈ n.faults rules src) : f.rule.category ≠ .identifiers := by
  cases n with
  | text t =>
    obtain ⟨run, -, hf⟩ := List.mem_flatMap.1 h
    obtain ⟨rule, hrule, rfl⟩ := List.mem_map.1 hf
    have hcategory := Typography.category_of_breaks (List.mem_filter.1 hrule).2
    simp [hcategory]
  | identifier => cases hn
  | inline e =>
    cases e with
    | messageRef | termRef =>
      obtain rfl := List.mem_singleton.1 h
      exact RuleCategory.noConfusion
    | _ => exact absurd h List.not_mem_nil
  | _ => exact absurd h List.not_mem_nil

theorem category_of_closedBy? {n : Node} {rule : Rule} (h : n.closedBy? = some rule) :
    rule.category = .features := by
  unfold closedBy? at h
  split at h
  · obtain rfl := Option.some.inj h
    rfl
  · obtain ⟨-, rfl⟩ := by simpa using h
    rfl
  · cases h

/-- At and below a node that is no name, nothing is found on identifiers. -/
theorem Sound.category_of_mem_findings {n : Node} (h : n.Sound source) (hn : n.isIdentifier = false)
    {f : Finding} (hf : f ∈ n.findings rules src) : f.rule.category ≠ .identifiers := by
  induction h with
  | @mk n _ _ ih =>
    cases hclosed : n.isClosed rules with
    | true =>
      obtain ⟨rule, hclosing, hrule⟩ := (Option.any_eq_true ..).1 hclosed
      rw [findings_of_closed src hclosing hrule] at hf
      obtain rfl := List.mem_singleton.1 hf
      simp [category_of_closedBy? hclosing]
    | false =>
      rw [findings_of_open src hclosed] at hf
      rcases List.mem_append.1 hf with hf | hf
      · exact category_of_mem_faults hn hf
      · obtain ⟨k, hk, hf⟩ := List.mem_flatMap.1 hf
        exact ih k (n.inside_sublist.subset hk) (isIdentifier_of_mem_inside hk) hf

end Node

/-- Of a name, the rules on the format and the length of identifiers may be broken. -/
theorem Identifier.rule_of_mem_findings {path : String} {id : Identifier} {f : Finding}
    (h : f ∈ id.findings rules path) : f.rule = .identifierFormat ∨ f.rule = .identifierLength := by
  rcases List.mem_append.1 h with h | h
  · obtain ⟨-, rfl⟩ := by simpa using h
    exact .inl rfl
  · obtain ⟨-, rfl⟩ := by simpa using h
    exact .inr rfl

/-- What is found in the value and the attributes of a definition is not on identifiers. -/
theorem Entry.category_of_mem_parts (h : (Node.entry e).Sound source) {f : Finding}
    (hf : f ∈ e.parts.flatMap (Node.findings rules src)) : f.rule.category ≠ .identifiers := by
  obtain ⟨n, hn, hf⟩ := List.mem_flatMap.1 hf
  exact (h.child (mem_children_of_mem_parts hn)).category_of_mem_findings
    (Node.isIdentifier_of_mem_parts hn) hf

end MessageLint
