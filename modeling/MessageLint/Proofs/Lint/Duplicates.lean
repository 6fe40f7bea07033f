-- SUMMARY: A definition is reported as a duplicate exactly when it repeats an earlier one.
import MessageLint.Proofs.Basic
import MessageLint.Proofs.Lint.Comments
import MessageLint.Proofs.Lint.Names

/-!
# Repeated definitions

The linter keeps the keys of the definitions that it has gone by, the key of a term being its name behind
a `-`. `Repeats` looks at the sequence of entries alone: an earlier definition has the same kind and the
same name. The two agree because no name starts with a `-`, which the grammar sees to. Nothing else in a
resource yields this finding, so the violations can be listed, and counted by the names that are there.
-/

namespace MessageLint

-- ---------------------------------------------------------------------------
-- Definitions that repeat another one
-- ---------------------------------------------------------------------------

/-- Messages and terms have names of their own. -/
inductive DefinitionKind where
  | message
  | term
  deriving DecidableEq

/-- The kind and the name of a definition. -/
def Entry.definition? : Entry → Option (DefinitionKind × String)
  | .message m => some (.message, m.id.name)
  | .term t => some (.term, t.id.name)
  | .comment .. => none

/-- The kind and the name of the entry with index `i`, if this is a definition. -/
def definitionAt (body : List Entry) (i : Nat) : Option (DefinitionKind × String) :=
  body[i]?.bind Entry.definition?

/-- The entry with index `i` is a definition, and an earlier one has the same kind and name. -/
def Repeats (body : List Entry) (i : Nat) : Prop :=
  (definitionAt body i).isSome ∧ ∃ j < i, definitionAt body j = definitionAt body i

instance (body : List Entry) (i : Nat) : Decidable (Repeats body i) :=
  inferInstanceAs (Decidable (_ ∧ ∃ j < i, _))

/-- The entries that repeat a definition, with their indices. -/
def repeated (body : List Entry) : List (Entry × Nat) :=
  body.zipIdx.filter fun p => Repeats body p.2

/-- The names of all definitions of a kind. -/
def namesOf (kind : DefinitionKind) (body : List Entry) : List String :=
  (body.filterMap Entry.definition?).filterMap fun d => if d.1 = kind then some d.2 else none

/-- What is said of a definition that repeats another one. -/
def Entry.duplicateFinding (e : Entry) : Finding := ⟨.duplicateIdentifier, e.span, e.key?.getD ""⟩

variable {source : String} {rules : RuleSet} {src : Source} {body : List Entry} {e : Entry} {i : Nat}

-- ---------------------------------------------------------------------------
-- Keys
-- ---------------------------------------------------------------------------

/-- The name under which a definition of some kind must be the only one. -/
def DefinitionKind.key : DefinitionKind → String → String
  | .message, name => name
  | .term, name => "-" ++ name

theorem Entry.key?_eq (e : Entry) : e.key? = e.definition?.map fun d => d.1.key d.2 := by
  cases e <;> rfl

/-- No name starts with the `-` of a term, so no message has the key of a term. -/
theorem DefinitionKind.key_injective {kind kind' : DefinitionKind} {name name' : String}
    (hname : IsName name.toList) (hname' : IsName name'.toList)
    (h : kind.key name = kind'.key name') : kind = kind' ∧ name = name' := by
  have hdash {a b : String} (ha : IsName a.toList) : a ≠ "-" ++ b := by
    rintro rfl
    rw [String.toList_append] at ha
    exact absurd ha.1 (by decide)
  cases kind with
  | message =>
    cases kind' with
    | message => exact ⟨rfl, h⟩
    | term => exact absurd h (hdash hname)
  | term =>
    cases kind' with
    | message => exact absurd h.symm (hdash hname')
    | term => exact ⟨rfl, by simpa [key] using h⟩

namespace Preceding

variable {before : Preceding} {key : String}

theorem mem_keys_followedBy :
    key ∈ (e.followedBy before).keys ↔ e.key? = some key ∨ key ∈ before.keys := by
  cases e with
  | message | term => simp [Entry.followedBy, define, Entry.key?, eq_comm]
  | comment level => cases level <;> simp [Entry.followedBy, Entry.key?]

/-- The keys that the walk has gone by are those of the entries so far. -/
theorem mem_keys_upTo :
    key ∈ (upTo body i).keys ↔ ∃ j < i, body[j]?.bind Entry.key? = some key := by
  induction i with
  | zero => simp [upTo, nothing]
  | succ i ih =>
    rw [upTo_succ, Nat.exists_lt_succ_right, ← ih]
    cases body[i]? with
    | none => simp
    | some e => simp [mem_keys_followedBy, or_comm]

end Preceding

-- ---------------------------------------------------------------------------
-- Findings of duplicates
-- ---------------------------------------------------------------------------

/-- Whether a finding is about a duplicate. -/
def Finding.isDuplicate (f : Finding) : Bool := f.rule = .duplicateIdentifier

theorem Finding.not_isDuplicate {f : Finding} (h : f.rule.category ≠ .identifiers) :
    f.isDuplicate = false :=
  decide_eq_false fun heq => h (by rw [heq]; rfl)

theorem Preceding.filter_duplicate (before : Preceding) (key : String) (span : Span) :
    (before.duplicate key span).filter Finding.isDuplicate = before.duplicate key span := by
  refine List.filter_eq_self.2 fun f hf => ?_
  obtain ⟨-, rfl⟩ := by simpa [duplicate] using hf
  rfl

/-- The one thing in a definition that can be a duplicate is the definition itself. -/
theorem Entry.findings_isDuplicate (h : (Node.entry e).Sound source) (before : Preceding)
    (isLast : Bool) : (e.findings rules src before isLast).filter Finding.isDuplicate =
      e.key?.elim [] fun key => before.duplicate key e.span := by
  have hinside : (e.inside.flatMap (Node.findings rules src)).filter Finding.isDuplicate = [] := by
    rw [inside_eq, List.flatMap_append, List.flatMap_map]
    refine List.filter_eq_nil_iff.2 fun f hf => ?_
    rcases List.mem_append.1 hf with hf | hf
    · obtain ⟨id, -, hf⟩ := List.mem_flatMap.1 hf
      rcases id.rule_of_mem_findings hf with hrule | hrule <;> simp [Finding.isDuplicate, hrule]
    · simp [Finding.not_isDuplicate (category_of_mem_parts h hf)]
  cases e with
  | message | term =>
    rw [findings_eq, List.filter_append, hinside, List.append_nil]
    exact before.filter_duplicate _ _
  | comment level c =>
    rw [findings_comment]
    refine List.filter_eq_nil_iff.2 fun f hf => ?_
    obtain ⟨rule, hrule, rfl⟩ := List.mem_map.1 hf
    have hcategory := Comment.category_of_fault (Option.mem_toList.1 hrule)
    simp [Finding.not_isDuplicate (f := ⟨rule, c.span, ""⟩) (by simp [hcategory])]

theorem entriesFindings_eq_flatMap (before : Preceding) (es : List Entry) :
    entriesFindings rules src before es = es.zipIdx.flatMap fun p =>
      p.1.findings rules src ((es.take p.2).foldl (fun before e => e.followedBy before) before)
        (es.drop (p.2 + 1)).isEmpty := by
  induction es generalizing before with
  | nil => rfl
  | cons e es ih =>
    rw [entriesFindings, ih, List.zipIdx_cons, List.zipIdx_succ, List.flatMap_cons, List.flatMap_map]
    rfl

-- ---------------------------------------------------------------------------
-- Duplicates and repetitions
-- ---------------------------------------------------------------------------

/-- Every definition has a name. -/
def Named (body : List Entry) : Prop := ∀ e ∈ body, ∀ d ∈ e.definition?, IsName d.2.toList

theorem Resource.named {r : Resource} (h : (Node.resource r).Every Node.WellFormed) :
    Named r.body := by
  intro e he d hd
  have hid {id : Identifier} (hid : .identifier id ∈ e.inside) : IsName id.name.toList :=
    h (.identifier id) <|
      .child (List.mem_map_of_mem he) (.child (e.inside_sublist.subset hid) (.self _))
  cases e with
  | message | term =>
    obtain rfl := Option.some.inj hd
    exact hid (by simp [Entry.inside])
  | comment => cases hd

/-- The key of a definition has come before exactly when the definition has. -/
theorem mem_keys_upTo_iff (hnamed : Named body) (he : body[i]? = some e) {kind : DefinitionKind}
    {name : String} (hdef : e.definition? = some (kind, name)) :
    kind.key name ∈ (Preceding.upTo body i).keys ↔ Repeats body i := by
  have hat : definitionAt body i = some (kind, name) := by rw [definitionAt, he]; exact hdef
  have hname : IsName name.toList := hnamed e (List.mem_of_getElem? he) _ hdef
  rw [Preceding.mem_keys_upTo, Repeats, hat]
  simp only [Option.isSome_some, true_and]
  refine exists_congr fun j => and_congr_right fun hj => ?_
  rw [definitionAt]
  cases hbefore : body[j]? with
  | none => simp
  | some e' =>
    have hnamed' := hnamed e' (List.mem_of_getElem? hbefore)
    rw [Option.bind_some, Option.bind_some, Entry.key?_eq]
    cases hdef' : e'.definition? with
    | none => simp
    | some d =>
      rw [Option.map_some, Option.some_inj, Option.some_inj]
      constructor
      · intro hkey
        obtain ⟨hkind, hname'⟩ := DefinitionKind.key_injective (hnamed' d hdef') hname hkey
        exact Prod.ext hkind hname'
      · rintro rfl
        rfl

theorem duplicates_eq (hnamed : Named body) (he : body[i]? = some e) :
    (e.key?.elim [] fun key => (Preceding.upTo body i).duplicate key e.span) =
      if Repeats body i then [e.duplicateFinding] else [] := by
  cases hdef : e.definition? with
  | none =>
    have hnot : ¬Repeats body i := fun h => by simpa [definitionAt, he, hdef] using h.1
    rw [Entry.key?_eq, hdef, if_neg hnot]
    rfl
  | some d =>
    rw [Entry.duplicateFinding, Entry.key?_eq, hdef]
    simp [Preceding.duplicate, mem_keys_upTo_iff hnamed he hdef]

theorem Resource.findings_isDuplicate {r : Resource} (h : (Node.resource r).Sound source)
    (hnamed : Named r.body) : (r.findings rules src).filter Finding.isDuplicate =
      (repeated r.body).map fun p => p.1.duplicateFinding := by
  have hentry : ∀ p ∈ r.body.zipIdx, (p.1.findings rules src (.upTo r.body p.2)
      (r.body.drop (p.2 + 1)).isEmpty).filter Finding.isDuplicate =
        if Repeats r.body p.2 then [p.1.duplicateFinding] else [] := by
    intro p hp
    have he : r.body[p.2]? = some p.1 := List.mem_zipIdx_iff_getElem?.1 hp
    have hsound := h.child (List.mem_map_of_mem (List.mem_of_getElem? he))
    rw [Entry.findings_isDuplicate hsound, duplicates_eq hnamed he]
  rw [findings, entriesFindings_eq_flatMap, List.filter_flatMap]
  exact (List.flatMap_congr hentry).trans <| flatMap_ite_singleton
    (fun p : Entry × Nat => Repeats r.body p.2) (fun p => p.1.duplicateFinding) _

-- ---------------------------------------------------------------------------
-- The number of repetitions
-- ---------------------------------------------------------------------------

theorem definitionAt_append {more : List Entry} (hi : i < body.length) :
    definitionAt (body ++ more) i = definitionAt body i := by
  rw [definitionAt, List.getElem?_append_left hi, definitionAt]

theorem repeats_append {more : List Entry} (hi : i < body.length) :
    Repeats (body ++ more) i ↔ Repeats body i := by
  rw [Repeats, Repeats, definitionAt_append hi]
  refine and_congr_right fun _ => exists_congr fun j => and_congr_right fun hj => ?_
  rw [definitionAt_append (Nat.lt_trans hj hi)]

theorem mem_namesOf {kind : DefinitionKind} {name : String} :
    name ∈ namesOf kind body ↔ ∃ j < body.length, definitionAt body j = some (kind, name) := by
  simp only [namesOf, List.mem_filterMap, definitionAt, Option.bind_eq_some_iff]
  constructor
  · rintro ⟨⟨kind', name'⟩, ⟨e, he, hdef⟩, hkind⟩
    obtain ⟨rfl, rfl⟩ := by simpa using hkind
    obtain ⟨j, hj⟩ := List.getElem?_of_mem he
    exact ⟨j, (List.getElem?_eq_some_iff.1 hj).1, e, hj, hdef⟩
  · rintro ⟨j, -, e, hj, hdef⟩
    exact ⟨(kind, name), ⟨e, List.mem_of_getElem? hj, hdef⟩, by simp⟩

/-- A last definition repeats another one when its name is among those of its kind. -/
theorem repeats_concat {kind : DefinitionKind} {name : String}
    (hdef : e.definition? = some (kind, name)) :
    Repeats (body ++ [e]) body.length ↔ name ∈ namesOf kind body := by
  have hat : definitionAt (body ++ [e]) body.length = some (kind, name) := by
    simpa [definitionAt] using hdef
  rw [Repeats, hat, mem_namesOf]
  simp only [Option.isSome_some, true_and]
  refine exists_congr fun j => and_congr_right fun hj => ?_
  rw [definitionAt_append hj]

theorem length_repeated_concat (body : List Entry) (e : Entry) :
    (repeated (body ++ [e])).length =
      (repeated body).length + if Repeats (body ++ [e]) body.length then 1 else 0 := by
  have hfront : body.zipIdx.filter (fun p => decide (Repeats (body ++ [e]) p.2)) =
      repeated body := by
    refine List.filter_congr fun p hp => ?_
    have hi := (List.getElem?_eq_some_iff.1 (List.mem_zipIdx_iff_getElem?.1 hp)).1
    rw [decide_eq_decide]
    exact repeats_append hi
  rw [repeated, List.zipIdx_append, List.filter_append, hfront, List.length_append]
  congr 1
  by_cases h : Repeats (body ++ [e]) body.length <;> simp [h]

theorem namesOf_concat {kind : DefinitionKind} {name : String}
    (hdef : e.definition? = some (kind, name)) (kind' : DefinitionKind) :
    namesOf kind' (body ++ [e]) = namesOf kind' body ++ if kind = kind' then [name] else [] := by
  by_cases h : kind = kind' <;> simp [namesOf, hdef, h]

/-- A name that stands among those of its kind more than once makes one repetition less than that. -/
theorem length_repeated (body : List Entry) :
    (repeated body).length + (namesOf .message body).dedup.length + (namesOf .term body).dedup.length =
      (namesOf .message body).length + (namesOf .term body).length := by
  induction body using List.reverseRecOn with
  | nil => rfl
  | append_singleton body e ih =>
    rw [length_repeated_concat]
    cases hdef : e.definition? with
    | none =>
      have hnot : ¬Repeats (body ++ [e]) body.length := fun h => by
        simpa [definitionAt, hdef] using h.1
      have hnames : ∀ kind, namesOf kind (body ++ [e]) = namesOf kind body := by simp [namesOf, hdef]
      rw [if_neg hnot, hnames, hnames]
      exact ih
    | some d =>
      obtain ⟨kind, name⟩ := d
      simp only [repeats_concat hdef]
      cases kind with
      | message | term =>
        simp only [namesOf_concat hdef, if_pos, reduceCtorEq, if_false, List.append_nil,
          length_dedup_concat, List.length_append, List.length_singleton]
        split <;> omega

-- ---------------------------------------------------------------------------
-- Violations
-- ---------------------------------------------------------------------------

namespace Resource

variable {r : Resource}

/-- When duplicates are reported, each definition that repeats an earlier one of its kind is one violation,
at the span of the whole entry, which starts with its comment if it has one. All the others are first of
their name, so the violations are as many as definitions, less their distinct names for each kind. -/
theorem lint_duplicates (src : Source) (hrule : rules.isEnabled .duplicateIdentifier)
    (h : Resource.parse source = .ok r) :
    (r.lint rules src).filter (·.isOf .duplicateIdentifier) =
        (repeated r.body).map (fun p => src.violation p.1.duplicateFinding) ∧
      (∀ e ∈ r.body, ∀ c, e.note? = some c → e.span.start = c.span.start) ∧
      ((r.lint rules src).filter (·.isOf .duplicateIdentifier)).length =
        ((namesOf .message r.body).length - (namesOf .message r.body).dedup.length) +
          ((namesOf .term r.body).length - (namesOf .term r.body).dedup.length) := by
  have hlist : (r.lint rules src).filter (·.isOf .duplicateIdentifier) =
      (repeated r.body).map fun p => src.violation p.1.duplicateFinding := by
    have hfilter : (r.findings rules src).filter (fun f =>
        (src.violation f).isOf .duplicateIdentifier && rules.isEnabled f.rule) =
          (r.findings rules src).filter Finding.isDuplicate := by
      refine List.filter_congr fun f _ => ?_
      rw [Bool.eq_iff_iff, Bool.and_eq_true, Source.isOf_violation, Finding.isDuplicate,
        decide_eq_true_iff]
      exact ⟨fun hf => hf.1, fun hf => ⟨hf, hf ▸ hrule⟩⟩
    rw [lint_eq, List.filter_map, List.filter_filter]
    simp only [Function.comp_apply]
    rw [hfilter, findings_isDuplicate (parse_sound h) (named (parse_every h)), List.map_map]
    rfl
  refine ⟨hlist, note_start h, ?_⟩
  have hcount := length_repeated r.body
  have hmessages := (List.dedup_sublist (namesOf .message r.body)).length_le
  have hterms := (List.dedup_sublist (namesOf .term r.body)).length_le
  rw [hlist, List.length_map]
  omega

/-- A message and a term of one name, and each of them once more, the message below a note. -/
theorem lint_duplicates_note :
    ∃ r : Resource, Resource.parse "a = b\n-a = c\n# n\na = d\n-a = e\n" = .ok r ∧
      RuleSet.allEnabled.isEnabled .duplicateIdentifier ∧
      ∃ src : Source, ((r.lint .allEnabled src).filter (·.isOf .duplicateIdentifier)).map
          (fun v => (v.location.offset, v.location.length)) = [(13, 9), (23, 6)] ∧
        ((r.lint .allEnabled src).filter (·.isOf .duplicateIdentifier)).length =
          ((namesOf .message r.body).length - (namesOf .message r.body).dedup.length) +
            ((namesOf .term r.body).length - (namesOf .term r.body).dedup.length) := by
  let value (text : String) (start : Nat) : Pattern :=
    ⟨[.text ⟨text, ⟨start, start + 1⟩⟩], ⟨start, start + 1⟩⟩
  let body : List Entry :=
    [.message ⟨⟨"a", ⟨0, 1⟩⟩, some (value "b" 4), [], none, ⟨0, 5⟩⟩,
      .term ⟨⟨"a", ⟨7, 8⟩⟩, value "c" 11, [], none, ⟨6, 12⟩⟩,
      .message ⟨⟨"a", ⟨17, 18⟩⟩, some (value "d" 21), [], some ⟨"n", ⟨13, 16⟩⟩, ⟨13, 22⟩⟩,
      .term ⟨⟨"a", ⟨24, 25⟩⟩, value "e" 28, [], none, ⟨23, 29⟩⟩]
  have hparse : Resource.parse "a = b\n-a = c\n# n\na = d\n-a = e\n" = .ok ⟨body, ⟨0, 30⟩⟩ := by cbv
  let src : Source := ⟨"a.ftl", "a.ftl", "a = b\n-a = c\n# n\na = d\n-a = e\n".toList, ⟨[5, 12, 16, 22, 29]⟩⟩
  have hrule : RuleSet.allEnabled.isEnabled .duplicateIdentifier := rfl
  obtain ⟨hlist, -, hcount⟩ := lint_duplicates src hrule hparse
  refine ⟨_, hparse, hrule, src, ?_, hcount⟩
  rw [hlist, List.map_map]
  decide +kernel

end Resource

end MessageLint
