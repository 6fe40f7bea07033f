-- SUMMARY: What is reported on the names of definitions, and which exclusions keep it quiet.
import MessageLint.Proofs.Lint.Comments
import MessageLint.Proofs.Lint.Names
import MessageLint.Proofs.Path

/-!
# Names of definitions

Only messages and terms are named by the file itself, so only their names are measured against the rules on
identifiers: `Identifier.violations` says what is reported of one name. The lists of exclusions are read by
rule (`RuleSet.LeavesOut`), and a file is listed by the last components of its path. What a path is as seen
from a folder ends with components of the path, so it adds nothing to look at it too.
-/

namespace MessageLint

variable {source : String} {rules : RuleSet} {src : Source} {e : Entry} {id : Identifier}

-- ---------------------------------------------------------------------------
-- Exclusions
-- ---------------------------------------------------------------------------

/-- The rule does not apply to the name, or not to any name in the file: its own lists have the name, or
some of the last components of the path. -/
def RuleSet.LeavesOut (rules : RuleSet) (rule : Rule) (path name : String) : Prop :=
  name ∈ (rules.exclusions rule).messages ∨
    ∃ file ∈ (rules.exclusions rule).files,
      file ≠ "" ∧ Path.components file <:+ Path.components path

instance (rules : RuleSet) (rule : Rule) (path name : String) :
    Decidable (rules.LeavesOut rule path name) :=
  inferInstanceAs (Decidable (_ ∨ ∃ file ∈ _, _))

theorem RuleSet.isExcluded_iff (rules : RuleSet) (rule : Rule) (path name : String) :
    rules.isExcluded rule path name ↔ rules.LeavesOut rule path name := by
  simp only [isExcluded, Exclusions.excludes, Path.endsWith, LeavesOut, Bool.or_eq_true,
    List.any_eq_true, Bool.and_eq_true, Bool.not_eq_true', String.isEmpty_eq_false_iff,
    List.isSuffixOf_iff_suffix, beq_iff_eq, exists_eq_right]
  exact or_comm

/-- A file that is listed as seen from a folder is listed by its whole path. -/
theorem RuleSet.LeavesOut.of_relativeTo {rule : Rule} {path root name : String}
    (h : rules.LeavesOut rule (Path.relativeTo path root) name) : rules.LeavesOut rule path name :=
  h.imp_right fun ⟨file, hfile, hne, hsuffix⟩ =>
    ⟨file, hfile, hne, hsuffix.trans (Path.components_relativeTo_suffix path root)⟩

-- ---------------------------------------------------------------------------
-- One name
-- ---------------------------------------------------------------------------

namespace Identifier

/-- The name is made of `a` to `z`, digits and `-`. -/
def IsPlain (id : Identifier) : Prop :=
  ∀ ch ∈ id.name.toList, 'a' ≤ ch ∧ ch ≤ 'z' ∨ '0' ≤ ch ∧ ch ≤ '9' ∨ ch = '-'

instance (id : Identifier) : Decidable id.IsPlain :=
  List.decidableBAll _ _

/-- What is reported of the name of a definition: first its format, then its length. -/
def violations (rules : RuleSet) (src : Source) (id : Identifier) : List Violation :=
  (if rules.isEnabled .identifierFormat ∧ ¬rules.LeavesOut .identifierFormat src.path id.name ∧
      ¬id.IsPlain then
    [.of .identifierFormat (src.location id.span)
      "Identifiers may only contain lowercase characters and -"] else []) ++
  (if rules.isEnabled .identifierLength ∧ ¬rules.LeavesOut .identifierLength src.path id.name ∧
      id.name.length < rules.minLength then
    [.of .identifierLength (src.location id.span)
      ("Identifiers must be at least " ++ toString rules.minLength ++ " characters long")] else [])

theorem isPlainName_iff (h : IsName id.name.toList) : isPlainName id.name ↔ id.IsPlain := by
  have hne : id.name.isEmpty = false := by
    rw [String.isEmpty_eq_false_iff]
    intro hempty
    rw [hempty] at h
    exact h
  simp [isPlainName, hne, IsPlain, Char.isLower, Char.isDigit, Char.le_def, or_assoc]

theorem map_filter_ite {c : Bool} {p : Prop} [Decidable p] (hc : c ↔ p) (rules : RuleSet)
    (src : Source) (f : Finding) :
    ((if c then [f] else []).filter (rules.isEnabled ·.rule)).map src.violation =
      if rules.isEnabled f.rule ∧ p then [src.violation f] else [] := by
  by_cases hp : p
  · cases henabled : rules.isEnabled f.rule <;> simp [hc.2 hp, hp, henabled]
  · simp [Bool.eq_false_iff.2 (mt hc.1 hp), hp]

theorem map_filter_findings (h : IsName id.name.toList) (rules : RuleSet) (src : Source) :
    ((id.findings rules src.path).filter (rules.isEnabled ·.rule)).map src.violation =
      id.violations rules src := by
  have hleft (rule : Rule) : (!rules.isExcluded rule src.path id.name) = true ↔
      ¬rules.LeavesOut rule src.path id.name := by
    rw [Bool.not_eq_true', ← Bool.not_eq_true, rules.isExcluded_iff]
  have hformat : (!rules.isExcluded .identifierFormat src.path id.name && !isPlainName id.name) = true ↔
      ¬rules.LeavesOut .identifierFormat src.path id.name ∧ ¬id.IsPlain := by
    rw [Bool.and_eq_true, hleft, Bool.not_eq_true', ← Bool.not_eq_true, isPlainName_iff h]
  have hlength : (!rules.isExcluded .identifierLength src.path id.name &&
      decide (id.name.length < rules.minLength)) = true ↔
        ¬rules.LeavesOut .identifierLength src.path id.name ∧ id.name.length < rules.minLength := by
    rw [Bool.and_eq_true, hleft, decide_eq_true_iff]
  rw [findings, List.filter_append, List.map_append, map_filter_ite hformat, map_filter_ite hlength]
  rfl

/-- What is reported of a name stands at it. -/
theorem location_of_mem_violations {v : Violation}
    (h : v ∈ id.violations rules src) : v.location = src.location id.span := by
  rcases List.mem_append.1 h with h | h <;>
    · obtain ⟨-, rfl⟩ := by simpa using h
      rfl

end Identifier

-- ---------------------------------------------------------------------------
-- All names
-- ---------------------------------------------------------------------------

/-- Whether a finding is on the format or the length of an identifier. -/
def Finding.isOnName (f : Finding) : Bool := f.rule = .identifierFormat || f.rule = .identifierLength

theorem Finding.not_isOnName {f : Finding} (h : f.rule.category ≠ .identifiers) :
    f.isOnName = false := by
  rw [isOnName, Bool.or_eq_false_iff, decide_eq_false_iff_not, decide_eq_false_iff_not]
  exact ⟨fun heq => h (by rw [heq]; rfl), fun heq => h (by rw [heq]; rfl)⟩

theorem Entry.filter_faults (before : Preceding) (isLast : Bool) (e : Entry) :
    (e.faults src before isLast).filter Finding.isOnName = [] := by
  have hduplicate (key : String) (span : Span) :
      (before.duplicate key span).filter Finding.isOnName = [] := by
    rw [Preceding.duplicate]
    split <;> rfl
  cases e with
  | message m => exact hduplicate ..
  | term t =>
    rw [faults, List.filter_cons_of_neg Bool.false_ne_true]
    exact hduplicate ..
  | comment level c =>
    have hfaults : (comment level c).faults src before isLast =
        (c.fault? src before isLast level).toList.map fun rule => ⟨rule, c.span, ""⟩ := by
      cases level <;> rfl
    rw [hfaults]
    refine List.filter_eq_nil_iff.2 fun f hf => ?_
    obtain ⟨rule, hrule, rfl⟩ := List.mem_map.1 hf
    have hcategory := Comment.category_of_fault (Option.mem_toList.1 hrule)
    simp [Finding.not_isOnName (f := ⟨rule, c.span, ""⟩) (by simp [hcategory])]

/-- In an entry only the name of a definition is measured. -/
theorem Entry.filter_findings (h : (Node.entry e).Sound source) (before : Preceding) (isLast : Bool) :
    (e.findings rules src before isLast).filter Finding.isOnName =
      e.id?.toList.flatMap (Identifier.findings rules src.path) := by
  have hname : (e.id?.toList.flatMap (Identifier.findings rules src.path)).filter Finding.isOnName =
      e.id?.toList.flatMap (Identifier.findings rules src.path) := by
    refine List.filter_eq_self.2 fun f hf => ?_
    obtain ⟨id, -, hf⟩ := List.mem_flatMap.1 hf
    rcases id.rule_of_mem_findings hf with hrule | hrule <;> simp [Finding.isOnName, hrule]
  have hparts : (e.parts.flatMap (Node.findings rules src)).filter Finding.isOnName = [] :=
    List.filter_eq_nil_iff.2 fun f hf => by
      simp [Finding.not_isOnName (category_of_mem_parts h hf)]
  rw [findings_eq, List.filter_append, filter_faults, inside_eq, List.flatMap_append,
    List.flatMap_map, List.filter_append, hparts, List.nil_append, List.append_nil]
  exact hname

theorem entriesFindings_filter {es : List Entry} (h : ∀ e ∈ es, (Node.entry e).Sound source)
    (before : Preceding) :
    (entriesFindings rules src before es).filter Finding.isOnName =
      (es.filterMap Entry.id?).flatMap (Identifier.findings rules src.path) := by
  induction es generalizing before with
  | nil => rfl
  | cons e es ih =>
    rw [List.forall_mem_cons] at h
    rw [entriesFindings, List.filter_append, Entry.filter_findings h.1, ih h.2]
    cases hid : e.id? <;> simp [hid]

-- ---------------------------------------------------------------------------
-- Names and the nodes behind them
-- ---------------------------------------------------------------------------

namespace Resource

variable {r : Resource}

/-- Entries of one body are the same, or one of them ends before the other starts. -/
theorem entries_apart (h : (Node.resource r).Sound source) {e e' : Entry} (he : e ∈ r.body)
    (he' : e' ∈ r.body) :
    e = e' ∨ e.span.stop ≤ e'.span.start ∨ e'.span.stop ≤ e.span.start := by
  let Apart (a b : Entry) : Prop := a.span.stop ≤ b.span.start ∨ b.span.stop ≤ a.span.start
  have : Std.Symm Apart := ⟨fun _ _ => Or.symm⟩
  have hrow : r.body.Pairwise Apart := (List.pairwise_map.1 h.row.pairwise).imp .inl
  by_cases heq : e = e'
  · exact .inl heq
  · exact .inr (hrow.forall he he' heq)

/-- The name of a definition does not overlap any node in the value or the attributes of one. -/
theorem name_apart (h : (Node.resource r).Sound source) {e e' : Entry} (he : e ∈ r.body)
    (he' : e' ∈ r.body) (hid : e'.id? = some id) {part n : Node} (hpart : part ∈ e.parts)
    (hn : part.Holds n) : n.span.stop ≤ id.span.start ∨ id.span.stop ≤ n.span.start := by
  have hsound := h.child (List.mem_map_of_mem he)
  have hsound' := h.child (List.mem_map_of_mem he')
  have hchild := Entry.mem_children_of_mem_parts hpart
  have hname := (hsound'.placed.covers _ (Entry.identifier_mem_children hid))
  have hinside := hsound.within (.child hchild hn)
  have hbelow := (hsound.child hchild).within hn
  rcases entries_apart h he he' with rfl | hle | hle
  · -- in one definition the name comes first
    have hordered : (Node.identifier id).span.stop ≤ part.span.start := by
      have hrow := hsound.placed.ordered.sublist e.inside_sublist
      rw [Entry.inside_eq, hid] at hrow
      exact (List.pairwise_cons.1 hrow).1 part hpart
    exact .inr (Nat.le_trans hordered hbelow.1)
  · exact .inl (Nat.le_trans hinside.2 (Nat.le_trans hle hname.1))
  · exact .inr (Nat.le_trans hname.2 (Nat.le_trans hle hinside.1))

/-- The span of a name shows the name, without the `-` of a term. -/
theorem name_shown (h : Resource.parse source = .ok r) (hid : id ∈ r.body.filterMap Entry.id?) :
    IsName id.name.toList ∧ id.span.slice? source.toList = some id.name.toList := by
  obtain ⟨e, he, hid⟩ := List.mem_filterMap.1 hid
  have hholds : (Node.resource r).Holds (.identifier id) :=
    .child (List.mem_map_of_mem he) (.child (Entry.identifier_mem_children hid) (.self _))
  obtain ⟨text, hslice, rfl⟩ := ((parse_sound h).placed_of_holds hholds).shows
  exact ⟨parse_every h _ hholds, hslice⟩

/-- What is reported of names is reported of the names of definitions, in their order. -/
theorem lint_filter_names (src : Source) (rules : RuleSet) (h : Resource.parse source = .ok r) :
    (r.lint rules src).filter (fun v => v.isOf .identifierFormat || v.isOf .identifierLength) =
      (r.body.filterMap Entry.id?).flatMap (Identifier.violations rules src) := by
  have hkept : (r.findings rules src).filter (fun f =>
      ((src.violation f).isOf .identifierFormat || (src.violation f).isOf .identifierLength) &&
        rules.isEnabled f.rule) =
      ((r.findings rules src).filter Finding.isOnName).filter (rules.isEnabled ·.rule) := by
    rw [List.filter_filter]
    refine List.filter_congr fun f _ => ?_
    rw [Bool.and_comm, Bool.eq_iff_iff, Bool.and_eq_true, Bool.and_eq_true, Bool.or_eq_true,
      Source.isOf_violation, Source.isOf_violation, Finding.isOnName, Bool.or_eq_true,
      decide_eq_true_iff, decide_eq_true_iff]
  have hsound := parse_sound h
  rw [lint_eq, List.filter_map, List.filter_filter]
  simp only [Function.comp_apply]
  rw [hkept, findings,
    entriesFindings_filter (fun e he => hsound.child (List.mem_map_of_mem he)) .nothing,
    List.filter_flatMap, List.map_flatMap]
  exact List.flatMap_congr fun id hid => Identifier.map_filter_findings (name_shown h hid).1 rules src

/-- Nothing on a name is reported at a node behind the name of a definition. -/
theorem location_ne_part {v : Violation} (h : Resource.parse source = .ok r)
    (hv : v ∈ r.lint rules src) (hof : v.isOf .identifierFormat ∨ v.isOf .identifierLength)
    (he : e ∈ r.body) {part n : Node} (hpart : part ∈ e.parts) (hn : part.Holds n) :
    v.location ≠ src.location n.span := by
  have hmem : v ∈ (r.body.filterMap Entry.id?).flatMap (Identifier.violations rules src) := by
    rw [← lint_filter_names src rules h]
    exact List.mem_filter.2 ⟨hv, Bool.or_eq_true_iff.2 hof⟩
  obtain ⟨id, hid, hv⟩ := List.mem_flatMap.1 hmem
  obtain ⟨e', he', hid'⟩ := List.mem_filterMap.1 hid
  have hsound := parse_sound h
  have hplaced : (Node.identifier id).Placed source :=
    ((hsound.child (List.mem_map_of_mem he')).child (Entry.identifier_mem_children hid')).placed
  have hlong : id.span.start < id.span.stop := by
    refine hplaced.start_lt_stop fun hshows => ?_
    have hname := (name_shown h hid).1
    rw [← show [] = id.name.toList from hshows] at hname
    exact hname
  have hpart' : part.Sound source :=
    (hsound.child (List.mem_map_of_mem he)).child (Entry.mem_children_of_mem_parts hpart)
  rw [id.location_of_mem_violations hv]
  exact (Source.location_ne (hpart'.placed_of_holds hn).start_le_stop hlong
    (name_apart hsound he he' hid' hpart hn)).symm

/-- Exclusions for a rule that is not on names are never looked at. -/
theorem lint_exclude (rules : RuleSet) (src : Source) (r : Resource) {rule : Rule}
    (hformat : rule ≠ .identifierFormat) (hlength : rule ≠ .identifierLength) (exclusions : Exclusions) :
    r.lint (rules.exclude rule exclusions) src = r.lint rules src := by
  have halike : RuleSet.FindsAlike src.path (rules.exclude rule exclusions) rules :=
    { identifiers := fun id => by
        have hsame {other : Rule} (hne : rule ≠ other) :
            (rules.exclude rule exclusions).exclusions other = rules.exclusions other := if_neg hne.symm
        simp only [Identifier.findings, RuleSet.isExcluded, hsame hformat, hsame hlength]
        rfl
      variants := rfl
      attributes := rfl }
  have hfindings : r.findings (rules.exclude rule exclusions) src = r.findings rules src :=
    entriesFindings_congr halike _ _
  rw [lint_eq, lint_eq, hfindings]
  rfl

/-- The violations of the rules on identifiers, whose lists of exclusions are read by rule and by the whole
path; no node behind the name of a definition has any, and the exclusions of no other rule matter. -/
theorem lint_identifiers (rules : RuleSet) (src : Source) (h : Resource.parse source = .ok r) :
    (r.lint rules src).filter (fun v => v.isOf .identifierFormat || v.isOf .identifierLength) =
        (r.body.filterMap Entry.id?).flatMap (Identifier.violations rules src) ∧
      (∀ id ∈ r.body.filterMap Entry.id?,
        IsName id.name.toList ∧ id.span.slice? source.toList = some id.name.toList) ∧
      (∀ v ∈ r.lint rules src, v.isOf .identifierFormat ∨ v.isOf .identifierLength →
        ∀ e ∈ r.body, ∀ part ∈ e.parts, ∀ n, part.Holds n → v.location ≠ src.location n.span) ∧
      (∀ rule path name, rules.isExcluded rule path name ↔ rules.LeavesOut rule path name) ∧
      (∀ path root file, Path.components file <:+ Path.components (Path.relativeTo path root) →
        Path.components file <:+ Path.components path) ∧
      (∀ rule path root name, rules.LeavesOut rule (Path.relativeTo path root) name →
        rules.LeavesOut rule path name) ∧
      ∀ rule exclusions, rule ≠ .identifierFormat → rule ≠ .identifierLength →
        r.lint (rules.exclude rule exclusions) src = r.lint rules src :=
  ⟨lint_filter_names src rules h, fun _ => name_shown h,
    fun _ hv hof _ he _ hpart _ hn => location_ne_part h hv hof he hpart hn, rules.isExcluded_iff,
    fun path root _ hsuffix => hsuffix.trans (Path.components_relativeTo_suffix path root),
    fun _ _ _ _ => RuleSet.LeavesOut.of_relativeTo,
    fun _ exclusions hformat hlength => lint_exclude rules src r hformat hlength exclusions⟩

/-- Of two names one is not plain and too short, and the other one is left out by the rule on lengths; an
attribute is named as it likes. -/
theorem lint_identifiers_exclusion :
    ∃ r : Resource, Resource.parse "aB = c\n .D = e\n-f = g\n" = .ok r ∧
      ∃ (src : Source) (rules : RuleSet),
        ((r.lint rules src).filter fun v => v.isOf .identifierFormat || v.isOf .identifierLength).map
            (fun v => (v.code, v.location.offset, v.location.length)) = [("ID01", 0, 2), ("ID02", 0, 2)] ∧
          r.lint (rules.exclude .duplicateIdentifier ⟨["menu.ftl"], ["aB"]⟩) src = r.lint rules src := by
  let value (text : String) (start : Nat) : Pattern :=
    ⟨[.text ⟨text, ⟨start, start + 1⟩⟩], ⟨start, start + 1⟩⟩
  let body : List Entry :=
    [.message ⟨⟨"aB", ⟨0, 2⟩⟩, some (value "c" 5), [⟨⟨"D", ⟨9, 10⟩⟩, value "e" 13, ⟨8, 14⟩⟩], none, ⟨0, 14⟩⟩,
      .term ⟨⟨"f", ⟨16, 17⟩⟩, value "g" 20, [], none, ⟨15, 21⟩⟩]
  have hparse : Resource.parse "aB = c\n .D = e\n-f = g\n" = .ok ⟨body, ⟨0, 22⟩⟩ := by cbv
  let src : Source := ⟨"/l/menu.ftl", "menu.ftl", "aB = c\n .D = e\n-f = g\n".toList, ⟨[6, 14, 21]⟩⟩
  let rules := (RuleSet.allEnabled.withMinLength 3).exclude .identifierLength ⟨["l/other.ftl"], ["f"]⟩
  obtain ⟨hlist, -, -, -, -, -, hframe⟩ := lint_identifiers rules src hparse
  refine ⟨_, hparse, src, rules, ?_, hframe _ _ (by decide) (by decide)⟩
  rw [hlist]
  decide +kernel

end Resource

end MessageLint
