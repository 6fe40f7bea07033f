-- SUMMARY: Which rules a filter leaves enabled, however it is written.
import MessageLint.CommandLine.Check
import MessageLint.Proofs.Naming
import MessageLint.Proofs.Outcome
import MessageLint.Proofs.Path

/-!
# Filters

A filter is cut at its commas, and each piece may name a rule. Of the rules that were enabled before, those
that some piece names stay enabled (`FilterNames`). So only the pieces that name a rule count, and neither
their order nor how often they stand there does.
-/

namespace MessageLint.CommandLine

variable {tree : FileTree} {folder : Option String} {o : CheckOptions} {a : Analysis}
  {filter filter' piece : String} {rule : Rule} {rules : RuleSet}

-- ---------------------------------------------------------------------------
-- Pieces
-- ---------------------------------------------------------------------------

/-- What stands between the commas of a filter. -/
def filterPieces (filter : String) : List String := (filter.toList.splitOn ',').map String.ofList

/-- Some piece of the filter names the rule. -/
def FilterNames (filter : String) (rule : Rule) : Prop :=
  ∃ piece ∈ filterPieces filter, rule.NamedBy piece

theorem mem_filterRules : rule ∈ filterRules filter ↔ FilterNames filter rule := by
  rw [filterRules, splitOn_eq, List.mem_filterMap, FilterNames, filterPieces]
  constructor
  · rintro ⟨piece, hpiece, hrule⟩
    exact ⟨_, List.mem_map_of_mem hpiece, (Rule.ofText_toOption ..).1 hrule⟩
  · rintro ⟨piece, hpiece, hrule⟩
    obtain ⟨text, htext, rfl⟩ := List.mem_map.1 hpiece
    exact ⟨text, htext, (Rule.ofText_toOption ..).2 hrule⟩

/-- A piece of white space names no rule. -/
theorem not_namedBy_of_isWhiteSpace (h : ∀ ch ∈ piece.toList, isWhiteSpace ch) :
    ¬rule.NamedBy piece := by
  rintro ⟨before, spelling, after, hpiece, hspelled, -, -⟩
  obtain ⟨ch, hch⟩ := List.exists_mem_of_ne_nil _ hspelled.ne_nil
  have hspace := h ch (by rw [hpiece]; simp [hch])
  rw [hspelled.not_isWhiteSpace ch hch] at hspace
  cases hspace

-- ---------------------------------------------------------------------------
-- Restricted rule sets
-- ---------------------------------------------------------------------------

theorem isEnabled_restrictTo : (restrictTo (some filter) rules).isEnabled rule ↔
    rules.isEnabled rule ∧ FilterNames filter rule := by
  rw [restrictTo, RuleSet.restrict, Bool.and_eq_true, List.contains_iff_mem, mem_filterRules]

/-- Only which rules a filter names counts. -/
theorem restrictTo_congr (h : ∀ rule, FilterNames filter rule ↔ FilterNames filter' rule) :
    restrictTo (some filter) rules = restrictTo (some filter') rules := by
  have hcontains (rule : Rule) :
      (filterRules filter).contains rule = (filterRules filter').contains rule := by
    rw [Bool.eq_iff_iff, List.contains_iff_mem, List.contains_iff_mem, mem_filterRules,
      mem_filterRules, h rule]
  simp only [restrictTo, RuleSet.restrict, hcontains]

/-- The rules that a check reports are those of the check without a filter, restricted by the filter. -/
theorem analysisOf_restrictTo (h : analysisOf tree folder o = .ok a) (hfilter : o.rules = some filter) :
    ∃ rules, analysisOf tree folder { o with rules := none } = .ok { a with ruleSets := [rules] } ∧
      a.ruleSets = [restrictTo (some filter) rules] := by
  obtain ⟨settings, rules, hsettings, hrules, hmake⟩ := analysisOf_ok.1 h
  obtain ⟨hroot, globs, hglobs, rfl⟩ := make_ok.1 hmake
  rw [hfilter]
  exact ⟨rules, analysisOf_ok.2 ⟨settings, rules, hsettings, hrules,
    make_ok.2 ⟨hroot, globs, hglobs, rfl⟩⟩, rfl⟩

/-- A filter leaves enabled, of the rules that are, those that a piece of it names, and changes nothing else.
Pieces that name no rule, the order of the pieces and how often they stand there make no difference, and no
piece names two rules. -/
theorem restrictTo_filter (filter : String) (rules : RuleSet) :
    (∀ rule, (restrictTo (some filter) rules).isEnabled rule ↔
      rules.isEnabled rule ∧ FilterNames filter rule) ∧
      (restrictTo (some filter) rules).minLength = rules.minLength ∧
      (restrictTo (some filter) rules).exclusions = rules.exclusions ∧
      (∀ filter', (∀ piece, (∃ rule : Rule, rule.NamedBy piece) →
        (piece ∈ filterPieces filter ↔ piece ∈ filterPieces filter')) →
        restrictTo (some filter) rules = restrictTo (some filter') rules) ∧
      (∀ piece, (∀ ch ∈ piece.toList, isWhiteSpace ch) → ∀ rule : Rule, ¬rule.NamedBy piece) ∧
      ∀ (piece : String) (rule rule' : Rule), rule.NamedBy piece → rule'.NamedBy piece →
        rule = rule' := by
  refine ⟨fun rule => isEnabled_restrictTo, rfl, rfl, fun filter' h => ?_,
    fun _ h _ => not_namedBy_of_isWhiteSpace h, fun _ _ _ h h' => h.unique h'⟩
  refine restrictTo_congr fun rule => exists_congr fun piece => and_congr_left fun hrule => ?_
  exact h piece ⟨rule, hrule⟩

theorem restrictTo_filter_pieces :
    restrictTo (some " id01 ,nope,,identifier-length, id01 ") .allEnabled =
        restrictTo (some "identifier-length, id01 ") .allEnabled ∧
      ((restrictTo (some "identifier-length, id01 ") .allEnabled).isEnabled .identifierFormat ↔
        FilterNames "identifier-length, id01 " .identifierFormat) := by
  have hpieces : filterPieces " id01 ,nope,,identifier-length, id01 " =
      [" id01 ", "nope", "", "identifier-length", " id01 "] := by decide +kernel
  have hpieces' : filterPieces "identifier-length, id01 " = ["identifier-length", " id01 "] := by
    decide +kernel
  refine ⟨(restrictTo_filter _ _).2.2.2.1 _ ?_, ?_⟩
  · rintro piece ⟨rule, hrule⟩
    have hnope : piece ≠ "nope" := by
      rintro rfl
      exact Rule.not_namedBy_of_error (by decide +kernel : Rule.ofText "nope" = .error ⟨"nope"⟩) hrule
    have hempty : piece ≠ "" := by
      rintro rfl
      exact (restrictTo_filter "" .empty).2.2.2.2.1 "" (by simp) rule hrule
    rw [hpieces, hpieces']
    simp only [List.mem_cons, List.not_mem_nil, hnope, hempty]
    tauto
  · rw [(restrictTo_filter _ _).1]
    exact and_iff_right rfl

end MessageLint.CommandLine
