-- SUMMARY: Violations stand in the file that was linted, and come out in the order of the file.
import MessageLint.Proofs.LineIndex
import MessageLint.Proofs.Text.Markup
import MessageLint.Proofs.Lint.Walk

/-!
# The order of violations

Findings stand at the spans of nodes and come in the order of their starts (`Found`), the spans of
nodes are stretches of the source, and later offsets have later positions. So the violations of a file
have proper locations and are in the order of reports as they are made: sorting a report of one file
moves nothing.
-/

namespace MessageLint

variable {source : String}

-- ---------------------------------------------------------------------------
-- Locations
-- ---------------------------------------------------------------------------

/-- A location in a source: whole characters of it, and the line and column of their start. -/
structure Location.Fits (source : String) (index : LineIndex) (l : Location) : Prop where
  stop_le_size : l.offset + l.length ≤ source.utf8ByteSize
  start_isValid : String.Pos.Raw.IsValid source ⟨l.offset⟩
  stop_isValid : String.Pos.Raw.IsValid source ⟨l.offset + l.length⟩
  position : index.position l.offset = ⟨l.line, l.column⟩

theorem Node.Placed.location_fits {n : Node} (src : Source) (h : n.Placed source) :
    (src.location n.span).Fits source src.lines := by
  have hstop : n.span.start + n.span.length = n.span.stop := Nat.add_sub_cancel' h.start_le_stop
  refine ⟨?_, h.start_isValid, ?_, rfl⟩
  · change n.span.start + n.span.length ≤ _
    rw [hstop]
    exact h.stop_le_size
  · change String.Pos.Raw.IsValid source ⟨n.span.start + n.span.length⟩
    rw [hstop]
    exact h.stop_isValid

theorem isSome_splitBytes? {offset : Nat} (h : String.Pos.Raw.IsValid source ⟨offset⟩) :
    (splitBytes? offset source.toList).isSome := by
  obtain ⟨c, ⟨before, hsource, hoffset⟩, rfl⟩ := exists_in_of_isValid h
  rw [hsource, hoffset, splitBytes?_append]
  rfl

-- ---------------------------------------------------------------------------
-- Sorting
-- ---------------------------------------------------------------------------

/-- In one file, locations at later offsets come later in a report. -/
theorem Source.location_le (src : Source) {s t : Span} (h : s.start ≤ t.start) :
    (src.location s).le (src.location t) := by
  rcases src.lines.position_le h with hline | ⟨hline, hcolumn⟩
  · simp [Location.le, location, hline]
  · simp [Location.le, location, hline, hcolumn]

theorem Report.sort_violations {report : Report}
    (h : report.violations.Pairwise fun a b => a.location.le b.location) :
    report.sort.violations = report.violations :=
  List.mergeSort_of_pairwise h

-- ---------------------------------------------------------------------------
-- Violations of one file
-- ---------------------------------------------------------------------------

section Violations

variable {rules : RuleSet} {src : Source} {r : Resource}

theorem Resource.location_of_mem_lint (h : (Node.resource r).Sound source) {v : Violation}
    (hv : v ∈ r.lint rules src) : ∃ n : Node, n.Placed source ∧ v.location = src.location n.span := by
  obtain ⟨f, hf, rfl⟩ := List.mem_map.1 hv
  obtain ⟨m, hm, n, hn, hspan⟩ := (findings_found h).held f (List.mem_filter.1 hf).1
  exact ⟨n, (h.child hm).placed_of_holds hn, congrArg src.location hspan⟩

/-- Whatever later starts bring about holds between any two violations, in the order of the walk. -/
theorem Resource.lint_pairwise {R : Violation → Violation → Prop}
    (h : (Node.resource r).Sound source)
    (hR : ∀ v w : Violation, ∀ s t : Span, s.start ≤ t.start → v.location = src.location s →
      w.location = src.location t → R v w) : (r.lint rules src).Pairwise R :=
  List.pairwise_map.2 <| ((findings_found h).ordered.filter _).imp fun hle => hR _ _ _ _ hle rfl rfl

/-- A file without carriage returns that was read is linted without leaving its text: the ends of
comments and the visible runs of texts are stretches of it. Every violation has a proper location, and
violations come in the order of the file, so that sorting a report of this one file changes nothing. -/
theorem Resource.lint_in_order (path root : String) (rules : RuleSet)
    (hreturn : '\r' ∉ source.toList) (h : Resource.parse source = .ok r) :
    ∃ src, Source.ofText path root source.toList = .ok src ∧
      LineIndex.ofText source.toList = .ok src.lines ∧
      (∀ level c, .comment level c ∈ r.body →
        (splitBytes? c.span.start src.text).isSome ∧ (splitBytes? c.span.stop src.text).isSome) ∧
      (∀ t, (Node.resource r).Holds (.text t) →
        ∀ run ∈ Markup.textRuns t.value.toList, run <:+: t.value.toList) ∧
      (∀ v ∈ r.lint rules src, v.location.Fits source src.lines) ∧
      ((r.lint rules src).Pairwise fun v w => v.location.offset ≤ w.location.offset) ∧
      ((r.lint rules src).Pairwise fun v w => v.location.line < w.location.line ∨
        v.location.line = w.location.line ∧ v.location.column ≤ w.location.column) ∧
      ∀ report : Report, report.violations = r.lint rules src →
        report.sort.violations = r.lint rules src := by
  have hsound := parse_sound h
  let src : Source :=
    ⟨path, Path.relativeTo path root, source.toList, ⟨offsetsOf '\n' 0 source.toList⟩⟩
  have hlines := LineIndex.ofText_eq_ok hreturn
  have hsrc : Source.ofText path root source.toList = .ok src := by rw [Source.ofText, hlines]; rfl
  refine ⟨src, hsrc, hlines, fun level c hc => ?_, fun t _ run => Markup.textRuns_infix,
    fun v hv => ?_, ?_, ?_, fun report hreport => ?_⟩
  · have hplaced := (hsound.child (List.mem_map_of_mem hc)).placed
    exact ⟨isSome_splitBytes? hplaced.start_isValid, isSome_splitBytes? hplaced.stop_isValid⟩
  · obtain ⟨n, hn, hlocation⟩ := location_of_mem_lint hsound hv
    rw [hlocation]
    exact hn.location_fits src
  · refine lint_pairwise hsound fun v w s t hle hv hw => ?_
    rw [hv, hw]
    exact hle
  · refine lint_pairwise hsound fun v w s t hle hv hw => ?_
    rw [hv, hw]
    exact src.lines.position_le hle
  · rw [← hreport]
    refine Report.sort_violations (hreport ▸ lint_pairwise hsound fun v w s t hle hv hw => ?_)
    rw [hv, hw]
    exact src.location_le hle

/-- A reference behind a character of two bytes, with a group comment that ends the file. -/
theorem Resource.lint_in_order_reference :
    ∃ r : Resource, '\r' ∉ "a = é{ b }\n## c\n".toList ∧
      Resource.parse "a = é{ b }\n## c\n" = .ok r ∧
      ∃ src, Source.ofText "d/a.ftl" "d" "a = é{ b }\n## c\n".toList = .ok src ∧
        ((r.lint .allEnabled src).map fun v =>
          (v.code, v.location.line, v.location.column, v.location.offset, v.location.length)) =
          [("SY02", 1, 9, 8, 1), ("GC01", 2, 1, 12, 4)] ∧
        ∀ report : Report, report.violations = r.lint .allEnabled src →
          report.sort.violations = r.lint .allEnabled src := by
  let value : Pattern :=
    ⟨[.text ⟨"é", ⟨4, 6⟩⟩, .placeable ⟨.inline (.messageRef ⟨"b", ⟨8, 9⟩⟩ none ⟨8, 9⟩), ⟨6, 11⟩⟩],
      ⟨4, 11⟩⟩
  let entry : Entry := .message ⟨⟨"a", ⟨0, 1⟩⟩, some value, [], none, ⟨0, 11⟩⟩
  have hreturn : '\r' ∉ "a = é{ b }\n## c\n".toList := by decide +kernel
  have hparse : Resource.parse "a = é{ b }\n## c\n" =
      .ok ⟨[entry, .comment .group ⟨"c", ⟨12, 16⟩⟩], ⟨0, 17⟩⟩ := by cbv
  obtain ⟨src, hsrc, -, -, -, -, -, -, hsort⟩ :=
    Resource.lint_in_order "d/a.ftl" "d" .allEnabled hreturn hparse
  refine ⟨_, hreturn, hparse, src, hsrc, ?_, hsort⟩
  obtain rfl : _ = src := Except.ok.inj hsrc
  cbv

end Violations

end MessageLint
