-- SUMMARY: The walk of the linter gets to the nodes it must, each once and in the order of the file.
import MessageLint.Proofs.Attachment
import MessageLint.Proofs.Lint.Independence
import MessageLint.Proofs.WellFormed.Resource

/-!
# Where the walk goes

A part of a resource is known by its path, the children to take from the resource down, so equal
parts in two places are two. `Node.enters` says which children the walk takes, `Node.Reaches` which
parts it gets to that way, and `Node.offences` what the rules on features and on text have against one
node, wherever it stands. The linter knows neither: it goes from one kind of node to the next. The last
theorem says that its violations of these rules are the offences of the parts that are reached, in the
order of their paths, which is the order of the file.
-/

namespace MessageLint

-- ---------------------------------------------------------------------------
-- Parts that are reached
-- ---------------------------------------------------------------------------

namespace Node

/-- Whether the walk goes on from a node to one of its children. It takes the name, the value and the
attributes of a definition; the value of an attribute, where attributes may be used; the elements of a
pattern and what they show; the values of variants, where variants may be used. It takes no selector,
no key, and nothing of a literal, a call or a reference. -/
def enters (rules : RuleSet) : Node → Node → Bool
  | .resource _, .entry _ => true
  | .entry _, .identifier _ | .entry _, .pattern _ | .entry _, .attribute _ => true
  | .attribute _, .pattern _ => !rules.isEnabled .unsupportedAttributes
  | .pattern _, .text _ | .pattern _, .placeable _ => true
  | .placeable _, .inline _ | .placeable _, .selection _ => true
  | .selection _, .variant _ => !rules.isEnabled .unsupportedVariants
  | .variant _, .pattern _ => true
  | .inline (.placeable _), .placeable _ => true
  | _, _ => false

/-- `n.Reaches rules path k`: the walk gets from `n` to `k`, taking at each step the child that `path`
names. -/
inductive Reaches (rules : RuleSet) : Node → List Nat → Node → Prop
  | self (n : Node) : Reaches rules n [] n
  | child {n k l : Node} {i : Nat} {path : List Nat} : n.children[i]? = some k →
      n.enters rules k → Reaches rules k path l → Reaches rules n (i :: path) l

/-- The rule against what a node is. -/
def feature? : Node → Option Rule
  | .entry (.term _) => some .unsupportedTerms
  | .attribute _ => some .unsupportedAttributes
  | .selection _ => some .unsupportedVariants
  | .inline (.messageRef ..) => some .unsupportedMessageReferences
  | .inline (.termRef ..) => some .unsupportedTermReferences
  | _ => none

/-- What the rules on features and on text have against a node: a text is checked, any other node
offends by what it is. -/
def offences : Node → List Finding
  | .text t => t.findings
  | n => n.feature?.toList.map fun rule => ⟨rule, n.span, ""⟩

end Node

/-- Whether the violation is one of a rule in one of the categories. -/
def Violation.isIn (categories : List RuleCategory) (v : Violation) : Bool :=
  Rule.all.any fun rule => categories.contains rule.category && v.isOf rule

variable {source : String} {rules : RuleSet} {src : Source}

theorem Source.isIn_violation (categories : List RuleCategory) (f : Finding) :
    (src.violation f).isIn categories = categories.contains f.rule.category := by
  rw [Bool.eq_iff_iff, Violation.isIn, List.any_eq_true]
  constructor
  · rintro ⟨rule, -, h⟩
    obtain ⟨hcategory, hrule⟩ := (Bool.and_eq_true ..).mp h
    rw [isOf_violation.1 hrule]
    exact hcategory
  · intro h
    exact ⟨f.rule, f.rule.mem_all, (Bool.and_eq_true ..).mpr ⟨h, isOf_violation.2 rfl⟩⟩

namespace Node

variable {n k l m : Node} {path : List Nat} {i j : Nat}

-- ---------------------------------------------------------------------------
-- Listing what is reached
-- ---------------------------------------------------------------------------

/-- The parts reached from a node, each with its path, in the order of the paths. -/
structure Listing (rules : RuleSet) (n : Node) (parts : List (List Nat × Node)) : Prop where
  ordered : parts.Pairwise fun a b => a.1 < b.1
  mem_iff : ∀ path k, (path, k) ∈ parts ↔ n.Reaches rules path k

/-- The parts reached by way of children, the first of which has index `i`, from the parts reached
below each child. -/
def spread (enters : Node → Bool) (below : Node → List (List Nat × Node)) (i : Nat) :
    List Node → List (List Nat × Node)
  | [] => []
  | k :: ks =>
    (if enters k then (below k).map fun part => (i :: part.1, part.2) else []) ++
      spread enters below (i + 1) ks

section Spread

variable {enters : Node → Bool} {below : Node → List (List Nat × Node)} {ks : List Node}

theorem mem_spread : (path, m) ∈ spread enters below i ks ↔
    ∃ j k rest, ks[j]? = some k ∧ enters k ∧ path = (i + j) :: rest ∧ (rest, m) ∈ below k := by
  induction ks generalizing i with
  | nil => simp [spread]
  | cons k ks ih =>
    rw [spread, List.mem_append, ih]
    constructor
    · rintro (h | ⟨j, k', rest, hk', hin, rfl, hmem⟩)
      · split at h
        · next hin =>
          obtain ⟨⟨rest, m⟩, hmem, heq⟩ := List.mem_map.1 h
          obtain ⟨rfl, rfl⟩ := Prod.mk.inj heq
          exact ⟨0, k, rest, rfl, hin, rfl, hmem⟩
        · cases h
      · exact ⟨j + 1, k', rest, hk', hin, by rw [Nat.add_right_comm, Nat.add_assoc], hmem⟩
    · rintro ⟨j, k', rest, hk', hin, rfl, hmem⟩
      cases j with
      | zero =>
        obtain rfl := Option.some.inj hk'
        rw [if_pos hin]
        exact .inl (List.mem_map.2 ⟨_, hmem, rfl⟩)
      | succ j =>
        exact .inr ⟨j, k', rest, hk', hin, by rw [Nat.add_right_comm, Nat.add_assoc], hmem⟩

theorem spread_ordered (h : ∀ k ∈ ks, enters k → (below k).Pairwise fun a b => a.1 < b.1) :
    (spread enters below i ks).Pairwise fun a b => a.1 < b.1 := by
  induction ks generalizing i with
  | nil => exact .nil
  | cons k ks ih =>
    obtain ⟨hk, hks⟩ := List.forall_mem_cons.1 h
    refine List.pairwise_append.2 ⟨?_, ih hks, ?_⟩
    · split
      · next hin =>
        refine List.pairwise_map.2 ((hk hin).imp ?_)
        intro a b hlt
        exact List.cons_lt_cons_iff.2 (.inr ⟨rfl, hlt⟩)
      · exact .nil
    · -- whatever goes through a later child has a larger index in front
      intro a ha b hb
      obtain ⟨j, -, rest, -, -, hpath, -⟩ := mem_spread.1 (show (b.1, b.2) ∈ _ from hb)
      split at ha
      · obtain ⟨a, -, rfl⟩ := List.mem_map.1 ha
        rw [hpath]
        exact List.cons_lt_cons_iff.2 (.inl (by omega))
      · cases ha

theorem flatMap_spread {α : Type} (f : Node → List α) :
    (spread enters below i ks).flatMap (fun part => f part.2) =
      (ks.filter enters).flatMap fun k => (below k).flatMap fun part => f part.2 := by
  induction ks generalizing i with
  | nil => rfl
  | cons k ks ih =>
    rw [spread, List.flatMap_append, ih, List.filter_cons]
    split
    · rw [List.flatMap_map, List.flatMap_cons]
    · rfl

end Spread

-- ---------------------------------------------------------------------------
-- What is found in what is reached
-- ---------------------------------------------------------------------------

/-- Whether a finding is reported, and is about a feature or about text. -/
def watches (rules : RuleSet) (f : Finding) : Bool :=
  [RuleCategory.features, .text].contains f.rule.category && rules.isEnabled f.rule

/-- The findings `fs` are what the parts reached from `n` offend. -/
def Shown (rules : RuleSet) (n : Node) (fs : List Finding) : Prop :=
  ∃ parts, n.Listing rules parts ∧
    (parts.flatMap fun part => part.2.offences).filter (watches rules) = fs

/-- What is shown at a node is its own offences, and then what its children show. -/
theorem Shown.node {find : Node → List Finding}
    (h : ∀ k ∈ n.children, n.enters rules k → Shown rules k (find k)) :
    Shown rules n (n.offences.filter (watches rules) ++
      (n.children.filter (n.enters rules)).flatMap find) := by
  choose! below hlisting hshown using h
  refine ⟨([], n) :: spread (n.enters rules) below 0 n.children, ⟨?_, ?_⟩, ?_⟩
  · refine .cons ?_ (spread_ordered fun k hk hin => (hlisting k hk hin).ordered)
    intro part hpart
    obtain ⟨j, -, rest, -, -, hpath, -⟩ := mem_spread.1 (show (part.1, part.2) ∈ _ from hpart)
    rw [hpath]
    exact List.nil_lt_cons ..
  · intro path m
    rw [List.mem_cons, mem_spread]
    constructor
    · rintro (h | ⟨j, k, rest, hk, hin, rfl, hmem⟩)
      · obtain ⟨rfl, rfl⟩ := Prod.mk.inj h
        exact .self _
      · rw [Nat.zero_add]
        have hk' := List.mem_of_getElem? hk
        exact .child hk hin (((hlisting k hk' hin).mem_iff rest m).1 hmem)
    · intro h
      cases h with
      | self => exact .inl rfl
      | @child _ k _ i path hk hin hreaches =>
        have hk' := List.mem_of_getElem? hk
        exact .inr ⟨i, k, path, hk, hin, by rw [Nat.zero_add],
          ((hlisting k hk' hin).mem_iff path m).2 hreaches⟩
  · rw [List.flatMap_cons, List.filter_append, flatMap_spread, List.filter_flatMap]
    congr 1
    refine List.flatMap_congr fun k hk => ?_
    obtain ⟨hk, hin⟩ := List.mem_filter.1 hk
    exact hshown k hk hin

-- ---------------------------------------------------------------------------
-- What the linter finds
-- ---------------------------------------------------------------------------

/-- Below an entry. -/
def IsInner : Node → Prop
  | .resource _ | .entry _ => False
  | _ => True

theorem isInner_of_enters (hn : ∀ r, n ≠ .resource r) (h : n.enters rules k) : k.IsInner := by
  unfold enters at h
  split at h
  · exact absurd rfl (hn _)
  all_goals first
    | exact trivial
    | cases h

/-- A node that is closed offends by what closes it, and no child is entered. -/
theorem offences_of_closed {rule : Rule} (hn : n.closedBy? = some rule) (h : rules.isEnabled rule) :
    n.offences.filter (watches rules) = [⟨rule, n.span, ""⟩] ∧
      n.children.filter (n.enters rules) = [] := by
  match n with
  | .attribute a =>
    obtain rfl := Option.some.inj hn
    simp [offences, feature?, watches, Rule.category, h, children, enters]
  | .selection s =>
    obtain ⟨-, rfl⟩ : s.variants ≠ [] ∧ .unsupportedVariants = rule := by simpa [closedBy?] using hn
    simp [offences, feature?, watches, Rule.category, h, children, enters]

/-- Whatever else is found at a node that is open is about a feature or about text, unless it is about
a name. -/
theorem offences_of_open (src : Source) (hinner : n.IsInner) (hwell : n.WellFormed)
    (h : n.isClosed rules = false) :
    n.offences.filter (watches rules) = (n.faults rules src).filter (watches rules) ∧
      n.children.filter (n.enters rules) = n.inside := by
  match n with
  | .attribute a =>
    have hopen : rules.isEnabled .unsupportedAttributes = false := h
    simp [offences, feature?, watches, Rule.category, hopen, faults, children, enters, inside]
  | .selection s =>
    have hopen : rules.isEnabled .unsupportedVariants = false := by
      simpa [isClosed, closedBy?, hwell.1] using h
    simp [offences, feature?, watches, Rule.category, hopen, faults, children, enters, inside]
  | .pattern p =>
    refine ⟨rfl, List.filter_eq_self.2 ?_⟩
    intro k hk
    obtain ⟨e, -, rfl⟩ := List.mem_map.1 hk
    cases e <;> rfl
  | .placeable p =>
    refine ⟨rfl, List.filter_eq_self.2 ?_⟩
    intro k hk
    obtain rfl := List.mem_singleton.1 hk
    cases p.expression <;> rfl
  | .variant v =>
    refine ⟨rfl, ?_⟩
    cases hkey : v.key <;> simp [children, ofKey, hkey, enters, inside]
  | .inline e =>
    cases e with
    | placeable p => exact ⟨rfl, rfl⟩
    | literal | functionCall | variableRef =>
      exact ⟨rfl, List.filter_eq_nil_iff.2 fun _ _ => Bool.false_ne_true⟩
    | messageRef | termRef =>
      exact ⟨rfl, List.filter_eq_nil_iff.2 fun _ _ => Bool.false_ne_true⟩
  | .identifier id =>
    refine ⟨?_, rfl⟩
    symm
    refine List.filter_eq_nil_iff.2 fun f hf => ?_
    rcases List.mem_append.1 hf with hf | hf <;>
      · obtain ⟨-, rfl⟩ := by simpa using hf
        simp [watches, Rule.category]
  | .text t => exact ⟨rfl, rfl⟩
  | .note _ | .number _ | .string _ => exact ⟨rfl, rfl⟩

/-- The watched findings at a node and in the children that are entered. -/
def watched (rules : RuleSet) (src : Source) (n : Node) : List Finding :=
  n.offences.filter (watches rules) ++ (n.children.filter (n.enters rules)).flatMap fun k =>
    (k.findings rules src).filter (watches rules)

theorem findings_watched (src : Source) (hinner : n.IsInner) (hwell : n.WellFormed) :
    (n.findings rules src).filter (watches rules) = n.watched rules src := by
  cases hclosed : n.isClosed rules with
  | true =>
    obtain ⟨rule, hn, hrule⟩ := (Option.any_eq_true ..).1 hclosed
    obtain ⟨hoffences, hchildren⟩ := offences_of_closed hn hrule
    -- a finding at the node itself is watched if it is among the offences
    have hwatched : watches rules ⟨rule, n.span, ""⟩ := by
      refine List.of_mem_filter (l := n.offences) ?_
      rw [hoffences]
      exact List.mem_singleton_self _
    rw [findings_of_closed src hn hrule, watched, hoffences, hchildren,
      List.filter_cons_of_pos hwatched]
    rfl
  | false =>
    obtain ⟨hoffences, hchildren⟩ := offences_of_open src hinner hwell hclosed
    rw [findings_of_open src hclosed, watched, hoffences, hchildren, List.filter_append,
      List.filter_flatMap]

theorem Sound.shown (h : n.Sound source) (src : Source) (hinner : n.IsInner)
    (hwell : n.Every WellFormed) : Shown rules n ((n.findings rules src).filter (watches rules)) := by
  induction h with
  | @mk n _ _ ih =>
    obtain ⟨hown, hbelow⟩ := every_iff.1 hwell
    rw [findings_watched src hinner hown]
    refine Shown.node fun k hk hin => ih k hk (isInner_of_enters ?_ hin) (hbelow k hk)
    rintro r rfl
    exact hinner

end Node

theorem Comment.category_of_groupFault {c : Comment} {afterOpenGroup isLast : Bool} {rule : Rule}
    (h : c.groupFault? src afterOpenGroup isLast = some rule) : rule.category = .comments := by
  unfold groupFault? at h
  repeat' split at h
  all_goals cases h
  all_goals rfl

theorem Comment.category_of_resourceFault {c : Comment} {afterDefinition isLast : Bool} {rule : Rule}
    (h : c.resourceFault? src afterDefinition isLast = some rule) : rule.category = .comments := by
  unfold resourceFault? at h
  repeat' split at h
  all_goals cases h
  all_goals rfl

/-- The comment of a definition stands before all that is entered. -/
theorem Entry.children_eq (e : Entry) :
    (Node.entry e).children = e.note?.toList.map .note ++ e.inside := by
  cases e with
  | message m => exact List.append_assoc ..
  | term t => rfl
  | comment => rfl

/-- All of a definition is entered but its comment. -/
theorem Entry.children_entered (rules : RuleSet) (e : Entry) :
    (Node.entry e).children.filter ((Node.entry e).enters rules) = e.inside := by
  have hinside : e.inside.filter ((Node.entry e).enters rules) = e.inside := by
    refine List.filter_eq_self.2 fun k hk => ?_
    cases e with
    | message m =>
      obtain rfl | ⟨p, -, rfl⟩ | ⟨a, -, rfl⟩ := by simpa [inside] using hk
      all_goals rfl
    | term t =>
      obtain rfl | rfl | ⟨a, -, rfl⟩ := by simpa [inside] using hk
      all_goals rfl
    | comment => cases hk
  have hnote : (e.note?.toList.map Node.note).filter ((Node.entry e).enters rules) = [] := by
    refine List.filter_eq_nil_iff.2 fun k hk => ?_
    obtain ⟨c, -, rfl⟩ := List.mem_map.1 hk
    exact Bool.false_ne_true
  rw [children_eq, List.filter_append, hnote, List.nil_append, hinside]

/-- What is found at an entry depends on the entries before it, but not what is watched. -/
theorem Entry.findings_watched (src : Source) (before : Preceding) (isLast : Bool) (e : Entry) :
    (e.findings rules src before isLast).filter (Node.watches rules) =
      (Node.entry e).watched rules src := by
  have hduplicate (key : String) (span : Span) :
      (before.duplicate key span).filter (Node.watches rules) = [] := by
    refine List.filter_eq_nil_iff.2 fun f hf => ?_
    obtain ⟨-, rfl⟩ := by simpa [Preceding.duplicate] using hf
    simp [Node.watches, Rule.category]
  have hcomment {fault : Option Rule} (span : Span)
      (h : ∀ rule, fault = some rule → rule.category = .comments) :
      (fault.toList.map fun rule => (⟨rule, span, ""⟩ : Finding)).filter (Node.watches rules) =
        [] := by
    refine List.filter_eq_nil_iff.2 fun f hf => ?_
    obtain ⟨rule, hrule, rfl⟩ := List.mem_map.1 hf
    simp [Node.watches, h rule (Option.mem_toList.1 hrule)]
  have hfaults : (e.faults src before isLast).filter (Node.watches rules) =
      (Node.entry e).offences.filter (Node.watches rules) := by
    cases e with
    | message m => exact hduplicate ..
    | term t =>
      have hsplit : (Entry.term t).faults src before isLast =
          (Node.entry (.term t)).offences ++ before.duplicate ("-" ++ t.id.name) t.span := rfl
      rw [hsplit, List.filter_append, hduplicate, List.append_nil]
    | comment level c =>
      cases level with
      | note => rfl
      | group => exact hcomment c.span fun _ => Comment.category_of_groupFault
      | resource => exact hcomment c.span fun _ => Comment.category_of_resourceFault
  rw [findings_eq, List.filter_append, List.filter_flatMap, hfaults, Node.watched, children_entered]

theorem entriesFindings_watched (src : Source) (before : Preceding) (es : List Entry) :
    (entriesFindings rules src before es).filter (Node.watches rules) =
      (es.map Node.entry).flatMap (Node.watched rules src) := by
  induction es generalizing before with
  | nil => rfl
  | cons e es ih =>
    rw [entriesFindings, List.filter_append, ih, Entry.findings_watched]
    rfl

theorem Node.Sound.shown_resource {r : Resource} (h : (Node.resource r).Sound source) (src : Source)
    (hwell : (Node.resource r).Every Node.WellFormed) :
    Shown rules (.resource r) ((r.findings rules src).filter (watches rules)) := by
  have hentered : (Node.resource r).children.filter ((Node.resource r).enters rules) =
      r.body.map .entry := by
    refine List.filter_eq_self.2 fun k hk => ?_
    obtain ⟨e, -, rfl⟩ := List.mem_map.1 hk
    rfl
  have hentries : ∀ k ∈ (Node.resource r).children, (Node.resource r).enters rules k →
      Shown rules k (k.watched rules src) := by
    intro k hk _
    obtain ⟨e, -, rfl⟩ := List.mem_map.1 hk
    refine Shown.node fun l hl hin => (h.child hk |>.child hl).shown src ?_ ?_
    · exact isInner_of_enters (fun _ => Node.noConfusion) hin
    · exact (every_iff.1 ((every_iff.1 hwell).2 _ hk)).2 l hl
  have hshown := Shown.node hentries
  rw [hentered] at hshown
  rw [Resource.findings, entriesFindings_watched]
  exact hshown

-- ---------------------------------------------------------------------------
-- Paths and spans
-- ---------------------------------------------------------------------------

namespace Node

variable {n k l m : Node} {path path' rest : List Nat} {i : Nat}

theorem Reaches.holds (h : n.Reaches rules path k) : n.Holds k := by
  induction h with
  | self n => exact .self n
  | child hk _ _ ih => exact .child (List.mem_of_getElem? hk) ih

/-- A part with a later path starts no earlier. -/
theorem Sound.start_le (h : n.Sound source) (hk : n.Reaches rules path k)
    (hl : n.Reaches rules path' l) (hlt : path < path') : k.span.start ≤ l.span.start := by
  induction hk generalizing path' l with
  | self n => exact (h.within hl.holds).1
  | @child n j k i path hj _ hk ih =>
    cases hl with
    | self => exact absurd hlt (List.not_lt_nil _)
    | @child _ j' _ i' path' hj' _ hl =>
      obtain ⟨hi, rfl⟩ := List.getElem?_eq_some_iff.1 hj
      obtain ⟨hi', rfl⟩ := List.getElem?_eq_some_iff.1 hj'
      have hsound := h.child (List.getElem_mem hi)
      rcases List.cons_lt_cons_iff.1 hlt with hindex | ⟨rfl, hpath⟩
      · have hapart := List.pairwise_iff_getElem.1 h.placed.ordered i i' hi hi' hindex
        have hkspan := (hsound.placed_of_holds hk.holds).start_le_stop
        have hkwithin := hsound.within hk.holds
        have hlwithin := (h.child (List.getElem_mem hi')).within hl.holds
        omega
      · exact ih hsound hl hpath

/-- What stands at or below a child that is not entered is not reached. -/
theorem Reaches.not_through (hk : n.Reaches rules path k) (hl : k.children[i]? = some l)
    (hclosed : k.enters rules l = false) : ¬n.Reaches rules (path ++ i :: rest) m := by
  induction hk with
  | self k =>
    intro h
    obtain _ | ⟨hl', hin, -⟩ := h
    obtain rfl := Option.some.inj (hl.symm.trans hl')
    rw [hclosed] at hin
    cases hin
  | child hj _ _ ih =>
    intro h
    obtain _ | ⟨hj', -, h⟩ := h
    obtain rfl := Option.some.inj (hj.symm.trans hj')
    exact ih hl hclosed h

end Node

-- ---------------------------------------------------------------------------
-- Violations
-- ---------------------------------------------------------------------------

theorem Typography.category_of_breaks {run : List Char} {rule : Rule}
    (h : Typography.breaks run rule) : rule.category = .text := by
  cases rule <;> first | rfl | cases h

theorem Node.category_of_mem_offences {n : Node} {f : Finding} (h : f ∈ n.offences) :
    [RuleCategory.features, .text].contains f.rule.category := by
  unfold offences at h
  split at h
  · obtain ⟨run, -, hf⟩ := List.mem_flatMap.1 h
    obtain ⟨rule, hrule, rfl⟩ := List.mem_map.1 hf
    rw [Typography.category_of_breaks (List.mem_filter.1 hrule).2]
    rfl
  · obtain ⟨rule, hrule, rfl⟩ := List.mem_map.1 h
    rw [Option.mem_toList] at hrule
    unfold feature? at hrule
    split at hrule <;> cases hrule <;> rfl

namespace Resource

variable {r : Resource}

/-- The violations of the rules on features and on text are the offences of the parts that the walk
reaches: each part offends once for each time it stands in the resource, in the order of the paths, in
which also the starts of their spans go up; and nothing at or below a part that is passed over, such as
a selector, a key or an argument, is reached. -/
theorem lint_reached (rules : RuleSet) (src : Source) (h : Resource.parse source = .ok r) :
    ∃ parts, (Node.resource r).Listing rules parts ∧
      (parts.Pairwise fun a b => a.2.span.start ≤ b.2.span.start) ∧
      (∀ path k i l, (Node.resource r).Reaches rules path k → k.children[i]? = some l →
        k.enters rules l = false → ∀ rest m, ¬(Node.resource r).Reaches rules (path ++ i :: rest) m) ∧
      (r.lint rules src).filter (·.isIn [.features, .text]) =
        ((parts.flatMap fun part => part.2.offences).filter fun f =>
          rules.isEnabled f.rule).map src.violation := by
  have hsound := parse_sound h
  have hall : Node.Shown rules (.resource r) ((r.findings rules src).filter (Node.watches rules)) :=
    hsound.shown_resource src (parse_every h)
  obtain ⟨parts, hlisting, hshown⟩ := hall
  refine ⟨parts, hlisting, ?_, ?_, ?_⟩
  · refine hlisting.ordered.imp_of_mem fun {a b} ha hb hlt => ?_
    exact hsound.start_le ((hlisting.mem_iff a.1 a.2).1 ha) ((hlisting.mem_iff b.1 b.2).1 hb) hlt
  · intro path k i l hk hl hclosed rest m
    exact hk.not_through hl hclosed
  · have hwatched : ((parts.flatMap fun part => part.2.offences).filter fun f =>
        rules.isEnabled f.rule) = (r.findings rules src).filter (Node.watches rules) := by
      rw [← hshown]
      refine List.filter_congr fun f hf => ?_
      obtain ⟨part, -, hf⟩ := List.mem_flatMap.1 hf
      rw [Node.watches, Node.category_of_mem_offences hf, Bool.true_and]
    rw [lint_eq, List.filter_map, List.filter_filter, hwatched]
    simp only [Function.comp_apply, Source.isIn_violation]
    rfl

/-- A reference in a variant two placeables deep, and one in an attribute: both are reached, and the
reference that selects is not. -/
theorem lint_reached_selector :
    ∃ r, Resource.parse
        "a = \x7b \x7b -b.c ->\n *[d] \x7b e \x7d\n \x7d \x7d\n .f = \x7b -g \x7d\n" = .ok r ∧
      ∃ (src : Source) (rules : RuleSet),
        ((r.lint rules src).map fun v => (v.code, v.location.offset)) = [("SY02", 24), ("SY03", 41)] ∧
        ∃ parts, (Node.resource r).Listing rules parts ∧
          (r.lint rules src).filter (·.isIn [.features, .text]) =
            ((parts.flatMap fun part => part.2.offences).filter fun f =>
              rules.isEnabled f.rule).map src.violation := by
  let source := "a = \x7b \x7b -b.c ->\n *[d] \x7b e \x7d\n \x7d \x7d\n .f = \x7b -g \x7d\n"
  let shown : Pattern :=
    ⟨[.placeable ⟨.inline (.messageRef ⟨"e", ⟨24, 25⟩⟩ none ⟨24, 25⟩), ⟨22, 27⟩⟩], ⟨22, 27⟩⟩
  let select : Selection := ⟨.termRef ⟨"b", ⟨9, 10⟩⟩ (some ⟨"c", ⟨11, 12⟩⟩) none ⟨8, 12⟩,
    [⟨.name ⟨"d", ⟨19, 20⟩⟩, shown, true, ⟨17, 27⟩⟩], ⟨8, 29⟩⟩
  let value : Pattern :=
    ⟨[.placeable ⟨.inline (.placeable ⟨.select select, ⟨6, 30⟩⟩), ⟨4, 32⟩⟩], ⟨4, 32⟩⟩
  let term : Pattern :=
    ⟨[.placeable ⟨.inline (.termRef ⟨"g", ⟨42, 43⟩⟩ none none ⟨41, 43⟩), ⟨39, 45⟩⟩], ⟨39, 45⟩⟩
  let entry : Entry :=
    .message ⟨⟨"a", ⟨0, 1⟩⟩, some value, [⟨⟨"f", ⟨35, 36⟩⟩, term, ⟨34, 45⟩⟩], none, ⟨0, 45⟩⟩
  have hparse : Resource.parse source = .ok ⟨[entry], ⟨0, 46⟩⟩ := by cbv
  let src : Source := ⟨"a.ftl", "a.ftl", source.toList, ⟨[15, 27, 32, 45]⟩⟩
  let rules :=
    (RuleSet.empty.enable .unsupportedMessageReferences).enable .unsupportedTermReferences
  obtain ⟨parts, hlisting, -, -, hviolations⟩ := lint_reached rules src hparse
  exact ⟨_, hparse, src, rules, by cbv, parts, hlisting, hviolations⟩

end Resource

end MessageLint
