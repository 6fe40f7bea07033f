-- SUMMARY: What one rule reports does not depend on the others, except inside what is forbidden as a whole.
import MessageLint.Proofs.Naming
import MessageLint.Proofs.Lint.Walk

/-!
# Independence of rules

Two rule sets that agree on everything but which rules report make the same findings, as long as
they also agree on the two rules that close nodes (`RuleSet.Agrees`). Enabling one of those puts in
its own findings and takes out those below the nodes that it closes; `Edited` is this relation
between two lists. The last theorem says both of the violations that are reported.
-/

namespace MessageLint

-- ---------------------------------------------------------------------------
-- Edited lists
-- ---------------------------------------------------------------------------

/-- `l'` is `l` after some elements with `ins` were put in and some with `del` taken out. All others
are in both, in the same order. -/
inductive Edited {α : Type} (ins del : α → Prop) : List α → List α → Prop
  | nil : Edited ins del [] []
  | keep (a : α) {l l' : List α} : Edited ins del l l' → Edited ins del (a :: l) (a :: l')
  | insert {a : α} {l l' : List α} : ins a → Edited ins del l l' → Edited ins del l (a :: l')
  | remove {a : α} {l l' : List α} : del a → Edited ins del l l' → Edited ins del (a :: l) l'

namespace Edited

variable {α β : Type} {ins del : α → Prop} {k k' l l' : List α}

theorem refl (l : List α) : Edited ins del l l := by
  induction l with
  | nil => exact .nil
  | cons a l ih => exact .keep a ih

/-- Everything is taken out, and other elements are put in. -/
theorem replace (hdel : ∀ a ∈ l, del a) (hins : ∀ a ∈ l', ins a) : Edited ins del l l' := by
  induction l with
  | cons a l ih =>
    rw [List.forall_mem_cons] at hdel
    exact .remove hdel.1 (ih hdel.2)
  | nil =>
    induction l' with
    | nil => exact .nil
    | cons a l' ih =>
      rw [List.forall_mem_cons] at hins
      exact .insert hins.1 (ih hins.2)

theorem append (h : Edited ins del k k') (h' : Edited ins del l l') :
    Edited ins del (k ++ l) (k' ++ l') := by
  induction h with
  | nil => exact h'
  | keep a _ ih => exact .keep a ih
  | insert ha _ ih => exact .insert ha ih
  | remove ha _ ih => exact .remove ha ih

theorem flatMap {f g : β → List α} {bs : List β} (h : ∀ b ∈ bs, Edited ins del (f b) (g b)) :
    Edited ins del (bs.flatMap f) (bs.flatMap g) := by
  induction bs with
  | nil => exact .nil
  | cons b bs ih =>
    rw [List.forall_mem_cons] at h
    exact append h.1 (ih h.2)

theorem mono {del' : α → Prop} (hdel : ∀ a, del a → del' a) (h : Edited ins del l l') :
    Edited ins del' l l' := by
  induction h with
  | nil => exact .nil
  | keep a _ ih => exact .keep a ih
  | insert ha _ ih => exact .insert ha ih
  | remove ha _ ih => exact .remove (hdel _ ha) ih

theorem map {f : α → β} {ins' del' : β → Prop} (hins : ∀ a, ins a → ins' (f a))
    (hdel : ∀ a ∈ l, del a → del' (f a)) (h : Edited ins del l l') :
    Edited ins' del' (l.map f) (l'.map f) := by
  induction h with
  | nil => exact .nil
  | keep a _ ih => exact .keep _ (ih (List.forall_mem_cons.1 hdel).2)
  | insert ha _ ih => exact .insert (hins _ ha) (ih hdel)
  | remove ha _ ih =>
    rw [List.forall_mem_cons] at hdel
    exact .remove (hdel.1 ha) (ih hdel.2)

/-- The new list may be filtered less strictly, if only elements that may be put in come through. -/
theorem filter {p p' : α → Bool} (hp : ∀ a, p a = p' a ∨ p a = false ∧ ins a)
    (h : Edited ins del l l') : Edited ins del (l.filter p) (l'.filter p') := by
  induction h with
  | nil => exact .nil
  | @keep a l l' _ ih =>
    rcases hp a with heq | ⟨hfalse, ha⟩
    · cases htrue : p' a <;> rw [htrue] at heq
      · simpa [heq, htrue] using ih
      · simpa [heq, htrue] using ih.keep a
    · cases htrue : p' a
      · simpa [hfalse, htrue] using ih
      · simpa [hfalse, htrue] using ih.insert ha
  | @insert a l l' ha _ ih =>
    cases htrue : p' a
    · simpa [htrue] using ih
    · simpa [htrue] using ih.insert ha
  | @remove a l l' ha _ ih =>
    cases htrue : p a
    · simpa [htrue] using ih
    · simpa [htrue] using ih.remove ha

end Edited

-- ---------------------------------------------------------------------------
-- Rule sets that walk alike
-- ---------------------------------------------------------------------------

namespace RuleSet

/-- The rule sets have all in common but the rules that report, and close the same nodes. -/
structure Agrees (rules rules' : RuleSet) : Prop where
  minLength : rules.minLength = rules'.minLength
  exclusions : rules.exclusions = rules'.exclusions
  variants : rules.isEnabled .unsupportedVariants = rules'.isEnabled .unsupportedVariants
  attributes : rules.isEnabled .unsupportedAttributes = rules'.isEnabled .unsupportedAttributes

/-- The rule sets find the same in the names of definitions, and close the same nodes. -/
structure FindsAlike (path : String) (rules rules' : RuleSet) : Prop where
  identifiers : ∀ id : Identifier, id.findings rules path = id.findings rules' path
  variants : rules.isEnabled .unsupportedVariants = rules'.isEnabled .unsupportedVariants
  attributes : rules.isEnabled .unsupportedAttributes = rules'.isEnabled .unsupportedAttributes

theorem Agrees.findsAlike {rules rules' : RuleSet} (h : rules.Agrees rules') (path : String) :
    FindsAlike path rules rules' where
  identifiers id := by
    obtain ⟨isEnabled, exclusions, minLength⟩ := rules
    obtain ⟨isEnabled', exclusions', minLength'⟩ := rules'
    obtain ⟨rfl, rfl, -, -⟩ := h
    rfl
  variants := h.variants
  attributes := h.attributes

end RuleSet

section Alike

variable {rules rules' : RuleSet} {src : Source} {path : String}

theorem Attribute.findings_congr (h : RuleSet.FindsAlike path rules rules') (a : Attribute) :
    a.findings rules = a.findings rules' := by
  simp only [findings, h.attributes, h.variants]

theorem Entry.findings_congr (h : RuleSet.FindsAlike src.path rules rules') (before : Preceding)
    (isLast : Bool) (e : Entry) :
    e.findings rules src before isLast = e.findings rules' src before isLast := by
  have hattributes : Attribute.findings rules = Attribute.findings rules' :=
    funext (Attribute.findings_congr h)
  cases e with
  | message m => simp only [findings, h.identifiers, h.variants, hattributes]
  | term t => simp only [findings, h.identifiers, h.variants, hattributes]
  | comment level c => cases level <;> rfl

theorem entriesFindings_congr (h : RuleSet.FindsAlike src.path rules rules') (before : Preceding)
    (es : List Entry) :
    entriesFindings rules src before es = entriesFindings rules' src before es := by
  induction es generalizing before with
  | nil => rfl
  | cons e es ih => simp only [entriesFindings, Entry.findings_congr h, ih]

end Alike

-- ---------------------------------------------------------------------------
-- Enabling one more rule
-- ---------------------------------------------------------------------------

section Enable

variable {source : String} {rules : RuleSet} {src : Source} {rule : Rule}

/-- The finding stands at or below a node that `rule` closes, and that is found in `fs` for it. -/
def Covered (rule : Rule) (ns : List Node) (fs : List Finding) (f : Finding) : Prop :=
  ∃ n ∈ ns, ∃ k, n.Holds k ∧ k.closedBy? = some rule ∧ ⟨rule, k.span, ""⟩ ∈ fs ∧
    ∃ j, k.Holds j ∧ f.span = j.span

theorem Covered.mono {ns ms : List Node} {fs gs : List Finding} (hns : ns ⊆ ms) (hfs : fs ⊆ gs)
    (f : Finding) (h : Covered rule ns fs f) : Covered rule ms gs f := by
  obtain ⟨n, hn, k, hk, hclosed, hf, hj⟩ := h
  exact ⟨n, hns hn, k, hk, hclosed, hfs hf, hj⟩

theorem Covered.of_child {n : Node} {ns : List Node} {fs : List Finding} (hns : ns ⊆ n.children)
    (f : Finding) (h : Covered rule ns fs f) : Covered rule [n] fs f := by
  obtain ⟨m, hm, k, hk, hrest⟩ := h
  exact ⟨n, List.mem_singleton_self n, k, .child (hns hm) hk, hrest⟩

/-- The findings `gs`, made with `rule` enabled, against those made without it. -/
def Enabled (rule : Rule) (ns : List Node) (fs gs : List Finding) : Prop :=
  Edited (·.rule = rule) (Covered rule ns gs) fs gs

theorem Enabled.append {ns ms : List Node} {fs gs fs' gs' : List Finding}
    (h : Enabled rule ns fs gs) (h' : Enabled rule ms fs' gs') :
    Enabled rule (ns ++ ms) (fs ++ fs') (gs ++ gs') :=
  (Edited.mono (Covered.mono (List.subset_append_left ..) (List.subset_append_left ..)) h).append
    (Edited.mono (Covered.mono (List.subset_append_right ..) (List.subset_append_right ..)) h')

/-- The faults of a node itself do not depend on what is enabled; its children may be closed. -/
theorem Enabled.node {n : Node} {ns : List Node} (fs : List Finding) (hns : ns ⊆ n.children)
    (h : ∀ k ∈ ns, Enabled rule [k] (k.findings rules src) (k.findings (rules.enable rule) src)) :
    Enabled rule [n] (fs ++ ns.flatMap (Node.findings rules src))
      (fs ++ ns.flatMap (Node.findings (rules.enable rule) src)) := by
  have hns' : Enabled rule ns (ns.flatMap (Node.findings rules src))
      (ns.flatMap (Node.findings (rules.enable rule) src)) :=
    .flatMap fun k hk => (h k hk).mono <|
      Covered.mono (List.cons_subset.2 ⟨hk, List.nil_subset _⟩) fun f hf => List.mem_flatMap_of_mem hk hf
  have hn : Enabled rule ([] ++ ns) _ _ := Enabled.append (.refl fs) hns'
  exact Edited.mono (Covered.of_child hns) hn

theorem Node.closedBy?_of_isClosed_enable {n : Node} (h : n.isClosed rules = false)
    (h' : n.isClosed (rules.enable rule)) : n.closedBy? = some rule := by
  obtain ⟨closing, hn, hclosing⟩ := (Option.any_eq_true ..).1 h'
  have hold : rules.isEnabled closing = false := by simpa [isClosed, hn] using h
  obtain rfl : closing = rule := by simpa [RuleSet.enable, hold] using hclosing
  exact hn

theorem Node.Sound.findings_enable {n : Node} (h : n.Sound source) (rule : Rule) :
    Enabled rule [n] (n.findings rules src) (n.findings (rules.enable rule) src) := by
  induction h with
  | @mk n hplaced hchildren ih =>
    have hsound : n.Sound source := .mk hplaced hchildren
    cases hclosed : n.isClosed rules with
    | true =>
      obtain ⟨closing, hn, hclosing⟩ := (Option.any_eq_true ..).1 hclosed
      have hclosing' : (rules.enable rule).isEnabled closing := by simp [RuleSet.enable, hclosing]
      rw [findings_of_closed src hn hclosing, findings_of_closed src hn hclosing']
      exact .refl _
    | false =>
      cases hclosed' : n.isClosed (rules.enable rule) with
      | true =>
        -- closed by the new rule: all that was found below makes way for one finding
        have hn := closedBy?_of_isClosed_enable hclosed hclosed'
        have hrule : (rules.enable rule).isEnabled rule := by simp [RuleSet.enable]
        rw [findings_of_closed src hn hrule]
        refine Edited.replace (fun f hf => ?_) (by simp)
        obtain ⟨m, hm, j, hj, hspan⟩ := hsound.found.held f hf
        obtain rfl := List.mem_singleton.1 hm
        exact ⟨m, hm, m, .self m, hn, List.mem_singleton_self _, j, hj, hspan⟩
      | false =>
        rw [findings_of_open src hclosed, findings_of_open src hclosed']
        exact Enabled.node _ n.inside_sublist.subset fun k hk => ih k (n.inside_sublist.subset hk)

theorem entriesFindings_enable {lo hi : Nat} {before : Preceding} {es : List Entry}
    (h : Row source lo hi (es.map .entry)) (rule : Rule) :
    Enabled rule (es.map .entry) (entriesFindings rules src before es)
      (entriesFindings (rules.enable rule) src before es) := by
  induction es generalizing lo before with
  | nil => exact .nil
  | cons e es ih =>
    have he : Enabled rule [.entry e] (e.findings rules src before es.isEmpty)
        (e.findings (rules.enable rule) src before es.isEmpty) := by
      rw [Entry.findings_eq, Entry.findings_eq]
      exact Enabled.node _ e.inside_sublist.subset fun k hk =>
        (h.2.1.child (e.inside_sublist.subset hk)).findings_enable rule
    exact Enabled.append he (ih h.2.2)

end Enable

-- ---------------------------------------------------------------------------
-- Violations
-- ---------------------------------------------------------------------------

/-- Whether the violation is one of `rule`. -/
def Violation.isOf (rule : Rule) (v : Violation) : Bool := v.code == rule.code

/-- Whether the violation is one of an enabled rule. -/
def RuleSet.reports (rules : RuleSet) (v : Violation) : Bool :=
  rules.enabled.any fun rule => v.isOf rule

/-- A finding as it is reported. -/
def Source.violation (src : Source) (f : Finding) : Violation :=
  .of f.rule (src.location f.span) f.message

/-- The violation lies inside the span of a node of the resource that `rule` closes and that is itself
among the violations `reported`. -/
def Resource.Hides (r : Resource) (src : Source) (rule : Rule) (reported : List Violation)
    (v : Violation) : Prop :=
  ∃ n, (Node.resource r).Holds n ∧ n.closedBy? = some rule ∧
    (∃ g ∈ reported, g.isOf rule ∧ g.location = src.location n.span) ∧
    n.span.start ≤ v.location.offset ∧ v.location.offset + v.location.length ≤ n.span.stop

section Violations

variable {source : String} {rules rules' : RuleSet} {src : Source} {r : Resource}

theorem Source.isOf_violation {rule : Rule} {f : Finding} :
    (src.violation f).isOf rule = true ↔ f.rule = rule := by
  rw [Violation.isOf, beq_iff_eq]
  exact Rule.code_injective.eq_iff

theorem Source.reports_violation (rules : RuleSet) (f : Finding) :
    rules.reports (src.violation f) = rules.isEnabled f.rule := by
  rw [Bool.eq_iff_iff, RuleSet.reports, List.any_eq_true]
  constructor
  · rintro ⟨rule, hmem, hrule⟩
    rw [isOf_violation.1 hrule]
    exact (List.mem_filter.1 hmem).2
  · intro h
    exact ⟨f.rule, List.mem_filter.2 ⟨f.rule.mem_all, h⟩, isOf_violation.2 rfl⟩

theorem Resource.lint_eq (rules : RuleSet) (src : Source) (r : Resource) :
    r.lint rules src =
      ((r.findings rules src).filter fun f => rules.isEnabled f.rule).map src.violation :=
  rfl

theorem Resource.lint_reports (rules : RuleSet) (src : Source) (r : Resource) :
    ∀ v ∈ r.lint rules src, rules.reports v := by
  intro v hv
  rw [lint_eq] at hv
  obtain ⟨f, hf, rfl⟩ := List.mem_map.1 hv
  rw [Source.reports_violation]
  exact (List.mem_filter.1 hf).2

theorem Resource.lint_filter :
    (r.lint rules src).filter rules'.reports =
      ((r.findings rules src).filter fun f =>
        rules'.isEnabled f.rule && rules.isEnabled f.rule).map src.violation := by
  rw [lint_eq, List.filter_map, List.filter_filter]
  simp only [Function.comp_apply, Source.reports_violation]

theorem Resource.lint_filter_comm (h : rules.Agrees rules') :
    (r.lint rules src).filter rules'.reports = (r.lint rules' src).filter rules.reports := by
  have hfindings : r.findings rules src = r.findings rules' src := entriesFindings_congr (h.findsAlike _) _ _
  rw [lint_filter, lint_filter, hfindings]
  simp only [Bool.and_comm]

theorem Resource.lint_enable (h : (Node.resource r).Sound source) (rule : Rule) :
    Edited (fun v => v.isOf rule) (r.Hides src rule (r.lint (rules.enable rule) src))
      (r.lint rules src) (r.lint (rules.enable rule) src) := by
  have hfindings : Enabled rule (Node.resource r).children (r.findings rules src)
      (r.findings (rules.enable rule) src) := entriesFindings_enable h.row rule
  have hkept : ∀ f : Finding, rules.isEnabled f.rule = (rules.enable rule).isEnabled f.rule ∨
      rules.isEnabled f.rule = false ∧ f.rule = rule := by
    intro f
    by_cases hrule : f.rule = rule
    · cases henabled : rules.isEnabled f.rule <;> simp [RuleSet.enable, hrule]
    · simp [RuleSet.enable, hrule]
  rw [lint_eq]
  refine (hfindings.filter hkept).map (fun f => Source.isOf_violation.2) fun f _ hf => ?_
  obtain ⟨m, hm, n, hn, hclosed, hfound, j, hj, hspan⟩ := hf
  have hsound := (h.child hm).of_holds hn
  have hinside := hsound.within hj
  have hlength := (hsound.placed_of_holds hj).start_le_stop
  refine ⟨n, .child hm hn, hclosed, ⟨src.violation ⟨rule, n.span, ""⟩, ?_, ?_, rfl⟩, ?_, ?_⟩
  · exact List.mem_map.2 ⟨_, List.mem_filter.2 ⟨hfound, by simp [RuleSet.enable]⟩, rfl⟩
  · exact Source.isOf_violation.2 rfl
  · change n.span.start ≤ f.span.start
    rw [hspan]
    exact hinside.1
  · change f.span.start + f.span.length ≤ n.span.stop
    rw [hspan, Span.length]
    omega

/-- Rules do not interfere. Only enabled rules report; two rule sets that agree report the same for the
rules enabled in both, so a smaller one reports what it keeps of the larger; and a rule that is
enabled in addition puts in its own violations and takes out only what it hides. -/
theorem Resource.lint_independent (src : Source) (rules : RuleSet)
    (h : Resource.parse source = .ok r) :
    (∀ v ∈ r.lint rules src, rules.reports v) ∧
      (∀ rules', rules.Agrees rules' →
        (r.lint rules src).filter (fun v => rules.reports v && rules'.reports v) =
          (r.lint rules' src).filter fun v => rules.reports v && rules'.reports v) ∧
      (∀ rules', rules.Agrees rules' → (∀ rule, rules.isEnabled rule → rules'.isEnabled rule) →
        r.lint rules src = (r.lint rules' src).filter rules.reports) ∧
      ∀ rule, Edited (fun v => v.isOf rule) (r.Hides src rule (r.lint (rules.enable rule) src))
        (r.lint rules src) (r.lint (rules.enable rule) src) := by
  refine ⟨lint_reports rules src r, fun rules' hagrees => ?_, fun rules' hagrees hle => ?_,
    fun rule => lint_enable (parse_sound h) rule⟩
  · have hleft : (r.lint rules src).filter (fun v => rules.reports v && rules'.reports v) =
        (r.lint rules src).filter rules'.reports :=
      List.filter_congr fun v hv => by simp [lint_reports rules src r v hv]
    have hright : (r.lint rules' src).filter (fun v => rules.reports v && rules'.reports v) =
        (r.lint rules' src).filter rules.reports :=
      List.filter_congr fun v hv => by simp [lint_reports rules' src r v hv]
    rw [hleft, hright, lint_filter_comm hagrees]
  · have hall : (r.lint rules src).filter rules'.reports = r.lint rules src := by
      rw [lint_filter, lint_eq]
      congr 1
      refine List.filter_congr fun f _ => ?_
      cases henabled : rules.isEnabled f.rule
      · simp
      · simp [hle _ henabled]
    rw [← lint_filter_comm hagrees, hall]

/-- References in a value and in an attribute: the second is found until attributes are forbidden. -/
theorem Resource.lint_independent_attribute :
    ∃ r : Resource, Resource.parse "a = { b }\n .c = { d }\n" = .ok r ∧
      ∃ src : Source, ∃ rules : RuleSet,
        ((r.lint rules src).map fun v => (v.code, v.location.offset)) =
          [("SY02", 6), ("SY02", 18)] ∧
        ((r.lint (rules.enable .unsupportedAttributes) src).map fun v =>
          (v.code, v.location.offset)) = [("SY02", 6), ("SY05", 11)] ∧
        Edited (fun v => v.isOf .unsupportedAttributes)
          (r.Hides src .unsupportedAttributes (r.lint (rules.enable .unsupportedAttributes) src))
          (r.lint rules src) (r.lint (rules.enable .unsupportedAttributes) src) := by
  let shown (name : String) (start : Nat) : Pattern :=
    ⟨[.placeable ⟨.inline (.messageRef ⟨name, ⟨start + 2, start + 3⟩⟩ none ⟨start + 2, start + 3⟩),
      ⟨start, start + 5⟩⟩], ⟨start, start + 5⟩⟩
  let entry : Entry := .message ⟨⟨"a", ⟨0, 1⟩⟩, some (shown "b" 4),
    [⟨⟨"c", ⟨12, 13⟩⟩, shown "d" 16, ⟨11, 21⟩⟩], none, ⟨0, 21⟩⟩
  have hparse : Resource.parse "a = { b }\n .c = { d }\n" = .ok ⟨[entry], ⟨0, 22⟩⟩ := by cbv
  let src : Source := ⟨"a.ftl", "a.ftl", "a = { b }\n .c = { d }\n".toList, ⟨[9, 21]⟩⟩
  let rules := RuleSet.empty.enable .unsupportedMessageReferences
  refine ⟨_, hparse, src, rules, by cbv, by cbv, ?_⟩
  exact (Resource.lint_independent src rules hparse).2.2.2 .unsupportedAttributes

end Violations

end MessageLint
