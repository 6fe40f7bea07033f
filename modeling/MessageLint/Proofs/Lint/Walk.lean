-- SUMMARY: The walk of the linter, node by node: what is found at a node and where the walk goes on.
import MessageLint.Lint
import MessageLint.Proofs.Spans.Resource

/-!
# The walk

The linter has a function for each kind of node. Seen from one node they all do the same: a node that
an enabled rule closes (`Node.closedBy?`) is one finding and is not entered; any other node has its
own faults and is then entered into some of its children, in order (`Node.inside`). Proofs about the
walk use these two equations and go by induction on the node.

The first use is the order of the findings. Every finding stands at the span of a node of the
resource, and as nodes lie in a row, findings come out by the start of their spans (`Found`).
-/

namespace MessageLint

variable {source : String} {rules : RuleSet} {src : Source}

-- ---------------------------------------------------------------------------
-- One node
-- ---------------------------------------------------------------------------

namespace Node

/-- The rule that forbids a node as a whole. While it is enabled the node is not entered. -/
def closedBy? : Node → Option Rule
  | .attribute _ => some .unsupportedAttributes
  | .selection s => if s.variants.isEmpty then none else some .unsupportedVariants
  | _ => none

/-- What is found at a node that is not closed, leaving aside what stands below it. -/
def faults (rules : RuleSet) (src : Source) : Node → List Finding
  | .text t => t.findings
  | .identifier id => id.findings rules src.path
  | .inline (.messageRef _ _ span) => [⟨.unsupportedMessageReferences, span, ""⟩]
  | .inline (.termRef _ _ _ span) => [⟨.unsupportedTermReferences, span, ""⟩]
  | _ => []

/-- The children that the walk goes on to, below an entry. -/
def inside : Node → List Node
  | .attribute a => [.pattern a.value]
  | .pattern p => p.elements.map ofElement
  | .placeable p => [ofExpression p.expression]
  | .selection s => s.variants.map .variant
  | .variant v => [.pattern v.value]
  | .inline (.placeable p) => [.placeable p]
  | _ => []

/-- The findings in a node below an entry. -/
def findings (rules : RuleSet) (src : Source) : Node → List Finding
  | .attribute a => a.findings rules
  | .pattern p => p.findings (rules.isEnabled .unsupportedVariants)
  | .text t => t.findings
  | .placeable p => p.findings (rules.isEnabled .unsupportedVariants)
  | .selection s => s.findings (rules.isEnabled .unsupportedVariants)
  | .variant v => v.findings (rules.isEnabled .unsupportedVariants)
  | .inline e => e.findings (rules.isEnabled .unsupportedVariants)
  | .identifier id => id.findings rules src.path
  | .resource _ | .entry _ | .note _ | .number _ | .string _ => []

/-- Whether an enabled rule closes the node. -/
def isClosed (rules : RuleSet) (n : Node) : Bool := n.closedBy?.any rules.isEnabled

variable {n : Node}

theorem inside_sublist (n : Node) : n.inside.Sublist n.children := by
  match n with
  | .attribute _ | .selection _ | .variant _ => exact List.sublist_cons_self ..
  | .pattern _ | .placeable _ | .inline (.placeable _) => exact .refl _
  | .inline (.literal _) | .inline (.functionCall ..) | .inline (.messageRef ..)
  | .inline (.termRef ..) | .inline (.variableRef ..) => exact List.nil_sublist _
  | .resource _ | .entry _ | .note _ | .text _ | .identifier _ | .number _ | .string _ =>
    exact List.nil_sublist _

theorem elementsFindings_eq (es : List Element) :
    elementsFindings (rules.isEnabled .unsupportedVariants) es =
      (es.map ofElement).flatMap (findings rules src) := by
  induction es with
  | nil => rfl
  | cons e es ih => cases e <;> simp [elementsFindings, Element.findings, ofElement, findings, ih]

theorem variantsFindings_eq (vs : List Variant) :
    variantsFindings (rules.isEnabled .unsupportedVariants) vs =
      (vs.map Node.variant).flatMap (findings rules src) := by
  induction vs with
  | nil => rfl
  | cons v vs ih => simp [variantsFindings, findings, ih]

/-- A closed node is one finding. -/
theorem findings_of_closed (src : Source) {rule : Rule} (hn : n.closedBy? = some rule)
    (h : rules.isEnabled rule) : n.findings rules src = [⟨rule, n.span, ""⟩] := by
  match n with
  | .attribute a =>
    obtain rfl := Option.some.inj hn
    simp [findings, Attribute.findings, h, span]
  | .selection ⟨_, variants, _⟩ =>
    obtain ⟨hvariants, rfl⟩ : variants ≠ [] ∧ .unsupportedVariants = rule := by
      simpa [closedBy?] using hn
    simp [findings, Selection.findings, h, hvariants, span]

/-- A node that is not closed is entered. -/
theorem findings_of_open (src : Source) (h : n.isClosed rules = false) :
    n.findings rules src = n.faults rules src ++ n.inside.flatMap (findings rules src) := by
  match n with
  | .attribute a =>
    have hopen : rules.isEnabled .unsupportedAttributes = false := h
    simp [findings, Attribute.findings, hopen, faults, inside]
  | .pattern ⟨_, _⟩ =>
    simpa [findings, Pattern.findings, faults, inside] using elementsFindings_eq _
  | .placeable ⟨e, _⟩ =>
    cases e <;>
      simp [findings, Placeable.findings, Expression.findings, faults, inside, ofExpression]
  | .selection ⟨_, variants, _⟩ =>
    have hopen : (rules.isEnabled .unsupportedVariants && !variants.isEmpty) = false := by
      cases variants <;> simp_all [isClosed, closedBy?]
    simpa [findings, Selection.findings, hopen, faults, inside] using variantsFindings_eq _
  | .variant ⟨_, _, _, _⟩ => simp [findings, Variant.findings, faults, inside]
  | .inline e => cases e <;> simp [findings, Inline.findings, faults, inside]
  | .text t => simp [findings, faults, inside]
  | .identifier id => simp [findings, faults, inside]
  | .resource _ | .entry _ | .note _ | .number _ | .string _ => rfl

theorem span_of_mem_faults {f : Finding} (h : f ∈ n.faults rules src) : f.span = n.span := by
  cases n with
  | text t =>
    obtain ⟨run, _, rule, _, rfl⟩ := by simpa [faults, TextElement.findings] using h
    rfl
  | identifier id =>
    rcases List.mem_append.1 h with h | h <;>
      · obtain ⟨-, rfl⟩ := by simpa using h
        rfl
  | inline e =>
    cases e with
    | messageRef | termRef =>
      obtain rfl := List.mem_singleton.1 h
      rfl
    | _ => exact absurd h (List.not_mem_nil)
  | _ => exact absurd h (List.not_mem_nil)

end Node

-- ---------------------------------------------------------------------------
-- One entry
-- ---------------------------------------------------------------------------

namespace Entry

/-- What is found at an entry itself. -/
def faults (src : Source) (before : Preceding) (isLast : Bool) : Entry → List Finding
  | .message m => before.duplicate m.id.name m.span
  | .term t => ⟨.unsupportedTerms, t.span, ""⟩ :: before.duplicate ("-" ++ t.id.name) t.span
  | .comment .note _ => []
  | .comment .group c =>
    (c.groupFault? src before.openGroup isLast).toList.map fun rule => ⟨rule, c.span, ""⟩
  | .comment .resource c =>
    (c.resourceFault? src (!before.keys.isEmpty) isLast).toList.map fun rule => ⟨rule, c.span, ""⟩

/-- The children of an entry that the walk goes on to. -/
def inside : Entry → List Node
  | .message m => .identifier m.id :: m.value.toList.map .pattern ++ m.attributes.map .attribute
  | .term t => .identifier t.id :: .pattern t.value :: t.attributes.map .attribute
  | .comment .. => []

theorem inside_sublist (e : Entry) : e.inside.Sublist (Node.entry e).children := by
  cases e with
  | message m =>
    simp [Node.children, inside]
  | term t => exact List.sublist_append_right ..
  | comment => exact .refl _

theorem findings_eq (rules : RuleSet) (src : Source) (before : Preceding) (isLast : Bool)
    (e : Entry) :
    e.findings rules src before isLast =
      e.faults src before isLast ++ e.inside.flatMap (Node.findings rules src) := by
  cases e with
  | message m =>
    cases hvalue : m.value <;>
      simp [findings, faults, inside, Node.findings, hvalue, List.flatMap_map]
  | term t => simp [findings, faults, inside, Node.findings, List.flatMap_map]
  | comment level c => cases level <;> simp [findings, faults, inside]

theorem span_of_mem_faults {before : Preceding} {isLast : Bool} {e : Entry} {f : Finding}
    (h : f ∈ e.faults src before isLast) : f.span = e.span := by
  have duplicate {key : String} {span : Span} (h : f ∈ before.duplicate key span) :
      f.span = span := by
    obtain ⟨-, rfl⟩ := by simpa [Preceding.duplicate] using h
    rfl
  cases e with
  | message m => exact duplicate h
  | term t =>
    rcases List.mem_cons.1 h with rfl | h
    · rfl
    · exact duplicate h
  | comment level c =>
    cases level with
    | note => exact absurd h (List.not_mem_nil)
    | group | resource =>
      obtain ⟨rule, _, rfl⟩ := List.mem_map.1 h
      rfl

end Entry

-- ---------------------------------------------------------------------------
-- The order of findings
-- ---------------------------------------------------------------------------

theorem Row.sublist {lo hi : Nat} {ns ms : List Node} (hsub : ms.Sublist ns)
    (h : Row source lo hi ns) : Row source lo hi ms :=
  .of_ordered h.le (fun _ hm => h.sound (hsub.subset hm)) (fun _ hm => h.covers (hsub.subset hm))
    (h.pairwise.sublist hsub)

/-- Findings in the order of their starts, each at the span of a node at or below one of `ns`. -/
structure Found (ns : List Node) (fs : List Finding) : Prop where
  held : ∀ f ∈ fs, ∃ n ∈ ns, ∃ k, n.Holds k ∧ f.span = k.span
  ordered : fs.Pairwise fun f g => f.span.start ≤ g.span.start

namespace Found

variable {lo hi : Nat} {n : Node} {ns ms : List Node} {fs gs : List Finding}

theorem nil (ns : List Node) : Found ns [] := ⟨by simp, .nil⟩

theorem single {f : Finding} (h : f.span = n.span) : Found [n] [f] where
  held g hg := by
    obtain rfl := List.mem_singleton.1 hg
    exact ⟨n, List.mem_singleton_self n, n, .self n, h⟩
  ordered := List.pairwise_singleton ..

theorem append (h : Row source lo hi (ns ++ ms)) (hf : Found ns fs) (hg : Found ms gs) :
    Found (ns ++ ms) (fs ++ gs) where
  held f hmem := by
    rcases List.mem_append.1 hmem with hmem | hmem
    · obtain ⟨n, hn, k, hk, hspan⟩ := hf.held f hmem
      exact ⟨n, List.mem_append_left _ hn, k, hk, hspan⟩
    · obtain ⟨n, hn, k, hk, hspan⟩ := hg.held f hmem
      exact ⟨n, List.mem_append_right _ hn, k, hk, hspan⟩
  ordered := by
    refine List.pairwise_append.2 ⟨hf.ordered, hg.ordered, fun f hfs g hgs => ?_⟩
    obtain ⟨n, hn, k, hk, hspan⟩ := hf.held f hfs
    obtain ⟨m, hm, l, hl, hspan'⟩ := hg.held g hgs
    have hrow : n.span.stop ≤ m.span.start := (List.pairwise_append.1 h.pairwise).2.2 n hn m hm
    have hn := h.sound (List.mem_append_left _ hn)
    have hk := And.intro (hn.within hk) (hn.placed_of_holds hk).start_le_stop
    have hl := (h.sound (List.mem_append_right _ hm)).within hl
    rw [hspan, hspan']
    omega

theorem flatMap {find : Node → List Finding} (h : Row source lo hi ns)
    (hfound : ∀ n ∈ ns, Found [n] (find n)) : Found ns (ns.flatMap find) := by
  induction ns generalizing lo with
  | nil => exact .nil _
  | cons n ns ih =>
    rw [List.forall_mem_cons] at hfound
    have hrow : Row source lo hi ([n] ++ ns) := h
    exact append hrow hfound.1 (ih h.2.2 hfound.2)

/-- What is found at a node comes before what is found below it. -/
theorem node (h : n.Sound source) (hfs : ∀ f ∈ fs, f.span = n.span) (hms : ms.Sublist n.children)
    (hgs : Found ms gs) : Found [n] (fs ++ gs) where
  held f hmem := by
    refine ⟨n, List.mem_singleton_self n, ?_⟩
    rcases List.mem_append.1 hmem with hmem | hmem
    · exact ⟨n, .self n, hfs f hmem⟩
    · obtain ⟨m, hm, k, hk, hspan⟩ := hgs.held f hmem
      exact ⟨k, .child (hms.subset hm) hk, hspan⟩
  ordered := by
    refine List.pairwise_append.2 ⟨?_, hgs.ordered, fun f hf g hg => ?_⟩
    · exact List.pairwise_of_forall_mem_list fun f hf g hg => by rw [hfs f hf, hfs g hg]
    · obtain ⟨m, hm, k, hk, hspan⟩ := hgs.held g hg
      rw [hfs f hf, hspan]
      exact (h.within (.child (hms.subset hm) hk)).1

end Found

theorem Node.Sound.found {n : Node} (h : n.Sound source) : Found [n] (n.findings rules src) := by
  induction h with
  | @mk n hplaced hchildren ih =>
    have hsound : n.Sound source := .mk hplaced hchildren
    cases hclosed : n.isClosed rules with
    | true =>
      obtain ⟨rule, hn, hrule⟩ := (Option.any_eq_true ..).1 hclosed
      rw [findings_of_closed src hn hrule]
      exact .single rfl
    | false =>
      rw [findings_of_open src hclosed]
      exact Found.node hsound (fun f => span_of_mem_faults) n.inside_sublist <|
        .flatMap (hsound.row.sublist n.inside_sublist) fun k hk => ih k (n.inside_sublist.subset hk)

theorem Entry.findings_found {e : Entry} {before : Preceding} {isLast : Bool}
    (h : (Node.entry e).Sound source) : Found [.entry e] (e.findings rules src before isLast) := by
  rw [Entry.findings_eq]
  exact Found.node h (fun f => span_of_mem_faults) e.inside_sublist <|
    .flatMap (h.row.sublist e.inside_sublist) fun k hk =>
      (h.child (e.inside_sublist.subset hk)).found

theorem entriesFindings_found {lo hi : Nat} {before : Preceding} {es : List Entry}
    (h : Row source lo hi (es.map .entry)) :
    Found (es.map .entry) (entriesFindings rules src before es) := by
  induction es generalizing lo before with
  | nil => exact .nil _
  | cons e es ih =>
    have hrow : Row source lo hi ([.entry e] ++ es.map .entry) := h
    exact .append hrow (Entry.findings_found h.2.1) (ih h.2.2)

theorem Resource.findings_found {r : Resource} (h : (Node.resource r).Sound source) :
    Found (Node.resource r).children (r.findings rules src) :=
  entriesFindings_found h.row

end MessageLint
