-- SUMMARY: When a check succeeds, and what it puts out.
import MessageLint.CommandLine.Run
import MessageLint.Proofs.Analysis

/-!
# Outcomes of checks

The exit code of a check says whether all is well: the settings amount to a rule set, the folder and its
files can be looked at, and no file has anything to report (`Passes`). A fault on the way ends it before
anything is put out. Otherwise the report on all files is put out in the format that was asked for
(`PutsOut`).
-/

namespace MessageLint

variable {tree : FileTree} {path : String} {paths : List String} {rules : RuleSet} {a : Analysis}
  {r : Report} {reports : List Report}

-- ---------------------------------------------------------------------------
-- Files with nothing to report
-- ---------------------------------------------------------------------------

/-- The file at a path is a resource without carriage returns in which the rules find nothing; `root` is
the folder that its name is seen from. -/
def FileTree.Clean (tree : FileTree) (root : String) (rules : RuleSet) (path : String) : Prop :=
  ∃ text src resource, tree.readText path = .ok text ∧ '\r' ∉ text.toList ∧
    Source.ofText path root text.toList = .ok src ∧ Resource.parse text = .ok resource ∧
      resource.lint rules src = []

namespace Report

theorem hasProblems_eq_false : r.hasProblems = false ↔ r.violations = [] ∧ r.fileErrors = [] := by
  simp [hasProblems, hasViolations]

theorem hasProblems_append {s : Report} :
    (r ++ s).hasProblems = false ↔ r.hasProblems = false ∧ s.hasProblems = false := by
  change (r.append s).hasProblems = false ↔ _
  simp only [hasProblems_eq_false, append, List.append_eq_nil_iff]
  tauto

theorem hasProblems_sort : r.sort.hasProblems = r.hasProblems := by
  rw [hasProblems, hasProblems, hasViolations, hasViolations, r.violations_sort.perm.isEmpty_eq,
    r.fileErrors_sort.perm.isEmpty_eq]

theorem merged_cons (r : Report) (reports : List Report) :
    merged (r :: reports) = r ++ merged reports := by
  rw [merged_eq, merged_eq]
  rfl

end Report

namespace Analysis

theorem checkFile_clean (hrules : a.ruleSets = [rules]) :
    (∃ r, a.checkFile tree path = .ok r ∧ r.hasProblems = false) ↔
      tree.Clean a.root rules path := by
  constructor
  · rintro ⟨r, hr, hclean⟩
    obtain ⟨text, htext, hsource⟩ := checkFile_ok hr
    have hreturn : '\r' ∉ text.toList := fun hreturn => by
      obtain ⟨fault, hfault⟩ := LineIndex.exists_ofText_eq_error hreturn
      have herror : a.checkSource path text = .error (.carriageReturn path fault) :=
        (checkSource_error hreturn).2 ⟨fault, hfault, rfl⟩
      rw [hsource] at herror
      cases herror
    obtain ⟨src, hsrc, ⟨e, -, rfl⟩ | ⟨resource, hparse, rfl⟩⟩ := checkSource_ok hsource
    · simp [Report.hasProblems] at hclean
    · have hlint : resource.lint rules src = [] := by
        simpa [hrules] using (Report.hasProblems_eq_false.1 hclean).1
      exact ⟨text, src, resource, htext, hreturn, hsrc, hparse, hlint⟩
  · rintro ⟨text, src, resource, htext, -, hsrc, hparse, hlint⟩
    have hcheck : a.checkFile tree path = .ok ⟨[], [], 1⟩ := by
      simp [checkFile, htext, checkSource, checkText, hsrc, hparse, hrules, hlint, Except.mapError]
    exact ⟨_, hcheck, rfl⟩

/-- The report on all files is made of the reports on each of them. -/
theorem checkFiles_merged (h : a.checkFiles tree paths = .ok r) :
    ∃ reports, List.Forall₂ (fun path report => a.checkFile tree path = .ok report) paths reports ∧
      r = Report.merged reports := by
  induction paths generalizing r with
  | nil =>
    obtain rfl := Except.ok.inj h
    exact ⟨[], .nil, rfl⟩
  | cons path paths ih =>
    obtain ⟨first, rest, hfirst, hrest, rfl⟩ := checkFiles_cons h
    obtain ⟨reports, hreports, rfl⟩ := ih hrest
    exact ⟨first :: reports, .cons hfirst hreports, (Report.merged_cons first reports).symm⟩

theorem checkFiles_clean : (∃ r, a.checkFiles tree paths = .ok r ∧ r.hasProblems = false) ↔
    ∀ path ∈ paths, ∃ r, a.checkFile tree path = .ok r ∧ r.hasProblems = false := by
  induction paths with
  | nil => simp [checkFiles, Report.empty, Report.hasProblems, Report.hasViolations]
  | cons path paths ih =>
    rw [List.forall_mem_cons, ← ih]
    constructor
    · rintro ⟨r, hr, hclean⟩
      obtain ⟨first, rest, hfirst, hrest, rfl⟩ := checkFiles_cons hr
      obtain ⟨hcleanFirst, hcleanRest⟩ := Report.hasProblems_append.1 hclean
      exact ⟨⟨first, hfirst, hcleanFirst⟩, rest, hrest, hcleanRest⟩
    · rintro ⟨⟨first, hfirst, hcleanFirst⟩, rest, hrest, hcleanRest⟩
      refine ⟨first ++ rest, ?_, Report.hasProblems_append.2 ⟨hcleanFirst, hcleanRest⟩⟩
      rw [checkFiles, hfirst, hrest]

theorem exists_files {found : List String} (h : tree.files a.root = .ok found) :
    ∃ paths, a.files tree = .ok paths := by
  rw [files, h]
  exact ⟨_, rfl⟩

/-- The files that are looked at are the message files that are found and not excluded. -/
theorem mem_files (h : a.files tree = .ok paths) : ∃ found, tree.files a.root = .ok found ∧
    ∀ path, path ∈ paths ↔ path ∈ found ∧ isMessageFile path ∧ a.isExcluded path = false := by
  rw [files] at h
  cases hfound : tree.files a.root with
  | error e =>
    rw [hfound] at h
    cases h
  | ok found =>
    rw [hfound] at h
    obtain rfl := Except.ok.inj h
    exact ⟨found, rfl, fun path => by simp [List.mem_mergeSort]⟩

theorem isExcluded_eq_false : a.isExcluded path = false ↔
    ∀ glob ∈ a.exclude, ¬glob.matchesText path.toList ∧
      ¬glob.matchesText (Path.relativeTo path a.root).toList := by
  simp [isExcluded]

end Analysis

namespace CommandLine

variable {folder : Option String} {o : CheckOptions} {args : List String} {f : Fault}

-- ---------------------------------------------------------------------------
-- From options to an analysis
-- ---------------------------------------------------------------------------

theorem make_ok {root : String} {ruleSets : List RuleSet} {exclude : List String} :
    Analysis.make tree root ruleSets exclude = .ok a ↔ tree.isFolder root ∧
      ∃ globs, List.Forall₂ (fun text glob => Glob.parse text = .ok glob) exclude globs ∧
        a = ⟨root, ruleSets, globs⟩ := by
  simp only [← mapM_eq_ok]
  unfold Analysis.make
  split
  · cases exclude.mapM Glob.parse <;> simp [*, eq_comm]
  · simp [*]

theorem analysisOf_ok : analysisOf tree folder o = .ok a ↔
    ∃ settings rules, loadSettings tree (settingsPath? tree folder o.settings) = .ok settings ∧
      settings.ruleSet = .ok rules ∧
        Analysis.make tree o.root [restrictTo o.rules rules] o.exclude = .ok a := by
  simp only [analysisOf, bind_eq_ok, mapError_eq_ok]
  tauto

theorem check_ok : check tree folder o = .ok r ↔
    ∃ a, analysisOf tree folder o = .ok a ∧ a.run tree = .ok r := by
  simp only [check, bind_eq_ok, mapError_eq_ok]

-- ---------------------------------------------------------------------------
-- Checks that succeed
-- ---------------------------------------------------------------------------

/-- All is well with a check: the settings can be loaded and amount to a rule set, the root is a folder
whose files can be found, the patterns are valid, and every message file that matches none of them, as it
stands or as seen from the root, is clean under the rules that are left. -/
inductive Passes (tree : FileTree) (folder : Option String) (o : CheckOptions) : Prop
  | mk {settings : Settings} {rules : RuleSet} {globs : List Glob} {found : List String}
      (settings_load : loadSettings tree (settingsPath? tree folder o.settings) = .ok settings)
      (settings_fit : settings.ruleSet = .ok rules)
      (root_isFolder : tree.isFolder o.root)
      (patterns_parse : List.Forall₂ (fun text glob => Glob.parse text = .ok glob) o.exclude globs)
      (files_found : tree.files o.root = .ok found)
      (files_clean : ∀ path ∈ found, Analysis.isMessageFile path →
        (∀ glob ∈ globs, ¬glob.matchesText path.toList ∧
          ¬glob.matchesText (Path.relativeTo path o.root).toList) →
        tree.Clean o.root (restrictTo o.rules rules) path)

/-- An analysis with one rule set has nothing to report when every file that it looks at is clean. -/
theorem run_clean (hrules : a.ruleSets = [rules]) :
    (∃ r, a.run tree = .ok r ∧ r.hasProblems = false) ↔
      ∃ found, tree.files a.root = .ok found ∧
        ∀ path ∈ found, Analysis.isMessageFile path → a.isExcluded path = false →
          tree.Clean a.root rules path := by
  constructor
  · rintro ⟨r, hr, hclean⟩
    cases hfiles : a.files tree with
    | error e =>
      rw [Analysis.run, hfiles] at hr
      cases hr
    | ok paths =>
      obtain ⟨merged, hmerged, rfl⟩ := Analysis.run_ok hfiles hr
      rw [Report.hasProblems_sort] at hclean
      have hall := Analysis.checkFiles_clean.1 ⟨merged, hmerged, hclean⟩
      obtain ⟨found, hfound, hmem⟩ := Analysis.mem_files hfiles
      exact ⟨found, hfound, fun path hpath hmessage hkept =>
        (Analysis.checkFile_clean hrules).1 (hall path ((hmem path).2 ⟨hpath, hmessage, hkept⟩))⟩
  · rintro ⟨found, hfound, hall⟩
    obtain ⟨paths, hfiles⟩ := Analysis.exists_files hfound
    obtain ⟨found', hfound', hmem⟩ := Analysis.mem_files hfiles
    obtain rfl := Except.ok.inj (hfound.symm.trans hfound')
    obtain ⟨merged, hmerged, hclean⟩ := Analysis.checkFiles_clean.2 fun path hpath => by
      obtain ⟨hpath, hmessage, hkept⟩ := (hmem path).1 hpath
      exact (Analysis.checkFile_clean hrules).2 (hall path hpath hmessage hkept)
    refine ⟨merged.sort, ?_, by rw [Report.hasProblems_sort, hclean]⟩
    rw [Analysis.run_eq hfiles, hmerged]
    rfl

theorem passes_iff :
    Passes tree folder o ↔ ∃ r, check tree folder o = .ok r ∧ r.hasProblems = false := by
  constructor
  · rintro @⟨_, rules, globs, _, hsettings, hrules, hroot, hglobs, hfound, hclean⟩
    let a : Analysis := ⟨o.root, [restrictTo o.rules rules], globs⟩
    have hmake : Analysis.make tree o.root [restrictTo o.rules rules] o.exclude = .ok a :=
      make_ok.2 ⟨hroot, globs, hglobs, rfl⟩
    have hone : a.ruleSets = [restrictTo o.rules rules] := rfl
    obtain ⟨r, hr, hnone⟩ := (run_clean hone).2 ⟨_, hfound, fun path hpath hmessage hkept =>
      hclean path hpath hmessage (Analysis.isExcluded_eq_false.1 hkept)⟩
    exact ⟨r, check_ok.2 ⟨a, analysisOf_ok.2 ⟨_, _, hsettings, hrules, hmake⟩, hr⟩, hnone⟩
  · rintro ⟨r, hr, hnone⟩
    obtain ⟨a, ha, hrun⟩ := check_ok.1 hr
    obtain ⟨settings, rules, hsettings, hrules, hmake⟩ := analysisOf_ok.1 ha
    obtain ⟨hroot, globs, hglobs, rfl⟩ := make_ok.1 hmake
    obtain ⟨found, hfound, hclean⟩ := (run_clean rfl).1 ⟨r, hrun, hnone⟩
    exact ⟨hsettings, hrules, hroot, hglobs, hfound, fun path hpath hmessage hglobs =>
      hclean path hpath hmessage (Analysis.isExcluded_eq_false.2 hglobs)⟩

-- ---------------------------------------------------------------------------
-- What is put out
-- ---------------------------------------------------------------------------

/-- What a check without a fault puts out. Its result has the findings of the reports on the single files,
in order; a file error or a violation is a line of the compact format, and where all files are resources
the text format is the plain report. -/
inductive PutsOut (tree : FileTree) (folder : Option String) (o : CheckOptions) (output : String) :
    Prop
  | mk {a : Analysis} {paths : List String} {reports : List Report} {r : Report}
      (analysis : analysisOf tree folder o = .ok a)
      (files : a.files tree = .ok paths)
      (each : List.Forall₂ (fun path report => a.checkFile tree path = .ok report) paths reports)
      (result : check tree folder o = .ok r)
      (violations : Arranged (fun v => v.location.key) (reports.flatMap (·.violations)) r.violations)
      (fileErrors : Arranged (fun e => e.location.key) (reports.flatMap (·.fileErrors)) r.fileErrors)
      (compact : o.format = .compact →
        output = unlines (r.fileErrors.map (·.line) ++ r.violations.map (·.line)))
      (text : o.format = .text → r.fileErrors = [] → output = r.text)

theorem printText_of_resources {root : String} (h : r.fileErrors = []) :
    (printText tree root r).text = r.text := by
  simp only [printText, Report.text, h, List.filter_nil, List.map_nil, List.nil_append]
  split
  · simp [unlines, String.join_append, Function.comp_def, String.append_assoc]
  · rfl

theorem print_of_no_problems (hformat : o.format = .text ∨ o.format = .compact)
    (h : r.hasProblems = false) : (print tree o r).text = "" := by
  obtain ⟨hviolations, herrors⟩ := Report.hasProblems_eq_false.1 h
  rcases hformat with hformat | hformat
  · simp [print, hformat, printText, h]
  · simp [print, hformat, printCompact, hviolations, herrors, unlines]

theorem putsOut_of_check (h : check tree folder o = .ok r) :
    PutsOut tree folder o (print tree o r).text := by
  obtain ⟨a, ha, hrun⟩ := check_ok.1 h
  cases hfiles : a.files tree with
  | error e =>
    rw [Analysis.run, hfiles] at hrun
    cases hrun
  | ok paths =>
    obtain ⟨merged, hmerged, rfl⟩ := Analysis.run_ok hfiles hrun
    obtain ⟨reports, hreports, rfl⟩ := Analysis.checkFiles_merged hmerged
    have hviolations := (Report.merged reports).violations_sort
    have herrors := (Report.merged reports).fileErrors_sort
    rw [Report.violations_merged] at hviolations
    rw [Report.fileErrors_merged] at herrors
    refine ⟨ha, hfiles, hreports, h, hviolations, herrors, fun hformat => ?_, fun hformat hnone => ?_⟩
    · rw [print, hformat]
      rfl
    · rw [print, hformat]
      exact printText_of_resources hnone

end CommandLine

end MessageLint
