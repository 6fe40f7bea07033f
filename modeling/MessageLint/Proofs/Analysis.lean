-- SUMMARY: Files are checked each by itself, and only a file that cannot be read ends an analysis.
import MessageLint.Analysis
import MessageLint.Proofs.Basic
import MessageLint.Proofs.Lint.Order
import MessageLint.Proofs.Report

/-!
# Analyses

The files of an analysis are checked one after another (`checkFiles`). The first one that does not pass
ends it, and which one that is and why is all that the error says. Otherwise the report on all files,
looked at for one file (`Report.about`), is the report on that file alone, and sorting keeps it so.
-/

namespace MessageLint

variable {tree tree' : FileTree} {path root text : String} {paths : List String} {e : AnalysisError}
  {report r : Report} {a : Analysis}

-- ---------------------------------------------------------------------------
-- Files that end an analysis
-- ---------------------------------------------------------------------------

/-- The file at a path can be read and has no carriage return. -/
def FileTree.Passes (tree : FileTree) (path : String) : Prop :=
  ∃ text, tree.readText path = .ok text ∧ '\r' ∉ text.toList

/-- The file at a path ends an analysis with an error. -/
inductive FileTree.Stops (tree : FileTree) (path : String) : AnalysisError → Prop
  | unreadable {fault : FileFault} : tree.readText path = .error fault →
      Stops tree path (.unreadable path fault)
  | carriageReturn {text : String} {e : CarriageReturn} : tree.readText path = .ok text →
      '\r' ∈ text.toList → LineIndex.ofText text.toList = .error e →
      Stops tree path (.carriageReturn path e)

namespace FileTree

theorem exists_stops (h : ¬tree.Passes path) : ∃ e, tree.Stops path e := by
  cases htext : tree.readText path with
  | error fault => exact ⟨_, .unreadable htext⟩
  | ok text =>
    have hreturn : '\r' ∈ text.toList := by
      by_contra hreturn
      exact h ⟨text, htext, hreturn⟩
    obtain ⟨e, he⟩ := LineIndex.exists_ofText_eq_error hreturn
    exact ⟨_, .carriageReturn htext hreturn he⟩

theorem not_stops (h : tree.Passes path) : ¬tree.Stops path e := by
  obtain ⟨text, htext, hreturn⟩ := h
  rintro (hfault | ⟨htext', hreturn', -⟩)
  · rw [htext] at hfault
    cases hfault
  · obtain rfl := Except.ok.inj (htext.symm.trans htext')
    exact hreturn hreturn'

end FileTree

theorem Source.ofText_eq_ok {text : List Char} (path root : String) (h : '\r' ∉ text) :
    Source.ofText path root text =
      .ok ⟨path, Path.relativeTo path root, text, ⟨offsetsOf '\n' 0 text⟩⟩ := by
  rw [ofText, LineIndex.ofText_eq_ok h]
  rfl

theorem Source.file_of_ofText {text : List Char} {src : Source}
    (h : Source.ofText path root text = .ok src) : src.file = Path.relativeTo path root := by
  obtain ⟨lines, -, rfl⟩ := map_eq_ok.1 h
  rfl

-- ---------------------------------------------------------------------------
-- One file
-- ---------------------------------------------------------------------------

namespace Analysis

/-- A text is checked when it has no carriage returns. Then it is no resource, and the report gives its
fault, or it is one, and the report gives what each rule set finds. -/
theorem checkSource_ok (h : a.checkSource path text = .ok r) :
    ∃ src, Source.ofText path a.root text.toList = .ok src ∧
      ((∃ e, Resource.parse text = .error e ∧ r = ⟨[], [⟨src.location e.span, e.message⟩], 1⟩) ∨
        ∃ resource, Resource.parse text = .ok resource ∧
          r = ⟨a.ruleSets.flatMap fun rules => resource.lint rules src, [], 1⟩) := by
  rw [checkSource, checkText] at h
  cases hsrc : Source.ofText path a.root text.toList with
  | error e =>
    rw [hsrc] at h
    cases h
  | ok src =>
    refine ⟨src, rfl, ?_⟩
    rw [hsrc] at h
    cases hparse : Resource.parse text with
    | error e =>
      simp only [hparse] at h
      exact .inl ⟨e, rfl, (Except.ok.inj h).symm⟩
    | ok resource =>
      simp only [hparse] at h
      exact .inr ⟨resource, rfl, (Except.ok.inj h).symm⟩

theorem exists_checkSource_ok (a : Analysis) (path : String) (h : '\r' ∉ text.toList) :
    ∃ r, a.checkSource path text = .ok r := by
  rw [checkSource, checkText, Source.ofText_eq_ok path a.root h]
  cases Resource.parse text <;> exact ⟨_, rfl⟩

theorem checkSource_error (h : '\r' ∈ text.toList) :
    a.checkSource path text = .error e ↔
      ∃ fault, LineIndex.ofText text.toList = .error fault ∧ e = .carriageReturn path fault := by
  obtain ⟨fault, hfault⟩ := LineIndex.exists_ofText_eq_error h
  have hcheck : a.checkSource path text = .error (.carriageReturn path fault) := by
    rw [checkSource, checkText, Source.ofText, hfault]
    rfl
  rw [hcheck, hfault]
  constructor
  · intro h
    exact ⟨fault, rfl, (Except.error.inj h).symm⟩
  · rintro ⟨fault', hfault', rfl⟩
    rw [Except.error.inj hfault']

theorem checkFile_ok (h : a.checkFile tree path = .ok r) :
    ∃ text, tree.readText path = .ok text ∧ a.checkSource path text = .ok r := by
  unfold checkFile at h
  split at h
  · next text htext => exact ⟨text, htext, h⟩
  · cases h

theorem exists_checkFile_ok (h : tree.Passes path) : ∃ r, a.checkFile tree path = .ok r := by
  obtain ⟨text, htext, hreturn⟩ := h
  rw [checkFile, htext]
  exact exists_checkSource_ok a path hreturn

/-- A file ends an analysis for what it is, not for what it is checked with. -/
theorem checkFile_error : a.checkFile tree path = .error e ↔ tree.Stops path e := by
  constructor
  · intro h
    unfold checkFile at h
    split at h
    · next text htext =>
      by_cases hreturn : '\r' ∈ text.toList
      · obtain ⟨fault, hfault, rfl⟩ := (checkSource_error hreturn).1 h
        exact .carriageReturn htext hreturn hfault
      · obtain ⟨r, hr⟩ := exists_checkSource_ok a path hreturn
        rw [hr] at h
        cases h
    · next fault hfault =>
      obtain rfl := Except.error.inj h
      exact .unreadable hfault
  · rintro (hfault | ⟨htext, hreturn, hfault⟩)
    · rw [checkFile, hfault]
    · rw [checkFile, htext]
      exact (checkSource_error hreturn).2 ⟨_, hfault, rfl⟩

/-- Everything in the report on one file is in this file. -/
theorem file_of_checkSource (h : a.checkSource path text = .ok r) :
    ∀ l ∈ r.locations, l.file = Path.relativeTo path a.root := by
  obtain ⟨src, hsrc, hcase⟩ := checkSource_ok h
  intro l hl
  rw [← Source.file_of_ofText hsrc]
  rcases hcase with ⟨e, -, rfl⟩ | ⟨resource, -, rfl⟩
  · obtain rfl : l = src.location e.span := by simpa [Report.locations] using hl
    rfl
  · obtain ⟨v, ⟨rules, -, hv⟩, rfl⟩ : ∃ v, (∃ rules ∈ a.ruleSets, v ∈ resource.lint rules src) ∧
        v.location = l := by simpa [Report.locations] using hl
    obtain ⟨f, -, rfl⟩ := List.mem_map.1 hv
    rfl

theorem filesChecked_of_checkSource (h : a.checkSource path text = .ok r) : r.filesChecked = 1 := by
  obtain ⟨src, -, ⟨e, -, rfl⟩ | ⟨resource, -, rfl⟩⟩ := checkSource_ok h <;> rfl

/-- One rule set reports on a file in the order of the file. -/
theorem sort_violations_of_checkSource {rules : RuleSet} (h : a.checkSource path text = .ok r)
    (hrules : a.ruleSets = [rules]) : r.sort.violations = r.violations := by
  obtain ⟨src, -, ⟨e, -, rfl⟩ | ⟨resource, hparse, rfl⟩⟩ := checkSource_ok h
  · exact List.mergeSort_nil
  · refine Report.sort_violations ?_
    rw [hrules, List.flatMap_singleton]
    refine Resource.lint_pairwise (Resource.parse_sound hparse) fun v w s t hle hv hw => ?_
    rw [hv, hw]
    exact src.location_le hle

theorem sort_fileErrors_of_checkSource (h : a.checkSource path text = .ok r) :
    r.sort.fileErrors = r.fileErrors := by
  obtain ⟨src, -, ⟨e, -, rfl⟩ | ⟨resource, -, rfl⟩⟩ := checkSource_ok h
  · exact List.mergeSort_singleton _
  · exact List.mergeSort_nil

-- ---------------------------------------------------------------------------
-- All files
-- ---------------------------------------------------------------------------

theorem checkFiles_cons_error : a.checkFiles tree (path :: paths) = .error e ↔
    tree.Stops path e ∨ tree.Passes path ∧ a.checkFiles tree paths = .error e := by
  by_cases hpasses : tree.Passes path
  · obtain ⟨r, hr⟩ : ∃ r, a.checkFile tree path = .ok r := exists_checkFile_ok hpasses
    simp only [FileTree.not_stops hpasses, hpasses, false_or, true_and]
    rw [checkFiles, hr]
    cases a.checkFiles tree paths <;> simp
  · obtain ⟨e', he'⟩ := FileTree.exists_stops hpasses
    simp only [hpasses, false_and, or_false]
    rw [← checkFile_error (a := a), checkFiles, checkFile_error.2 he']

/-- The first file that does not pass ends it, with its error. -/
theorem checkFiles_error : a.checkFiles tree paths = .error e ↔
    ∃ before path after, paths = before ++ path :: after ∧ (∀ p ∈ before, tree.Passes p) ∧
      tree.Stops path e := by
  induction paths with
  | nil => simp [checkFiles]
  | cons path paths ih =>
    rw [checkFiles_cons_error, ih]
    constructor
    · rintro (hstops | ⟨hpasses, before, p, after, rfl, hbefore, hstops⟩)
      · exact ⟨[], path, paths, rfl, List.forall_mem_nil _, hstops⟩
      · exact ⟨path :: before, p, after, rfl, List.forall_mem_cons.2 ⟨hpasses, hbefore⟩, hstops⟩
    · rintro ⟨before, p, after, hpaths, hbefore, hstops⟩
      cases before with
      | nil =>
        obtain ⟨rfl, -⟩ := List.cons_eq_cons.1 hpaths
        exact .inl hstops
      | cons q before =>
        obtain ⟨rfl, rfl⟩ := List.cons_eq_cons.1 hpaths
        obtain ⟨hpasses, hbefore⟩ := List.forall_mem_cons.1 hbefore
        exact .inr ⟨hpasses, before, p, after, rfl, hbefore, hstops⟩

/-- Files that pass may be changed into others that do: the error is that of another file. -/
theorem checkFiles_error_congr
    (h : ∀ p ∈ paths, tree.Passes p ∧ tree'.Passes p ∨ tree'.readText p = tree.readText p) :
    a.checkFiles tree' paths = .error e ↔ a.checkFiles tree paths = .error e := by
  induction paths with
  | nil => exact Iff.rfl
  | cons path paths ih =>
    obtain ⟨hpath, hpaths⟩ := List.forall_mem_cons.1 h
    rw [checkFiles_cons_error, checkFiles_cons_error, ih hpaths]
    rcases hpath with ⟨hpasses, hpasses'⟩ | hsame
    · simp only [hpasses, hpasses', FileTree.not_stops]
    · rw [← checkFile_error (a := a), ← checkFile_error (a := a), checkFile, checkFile,
        FileTree.Passes, FileTree.Passes, hsame]

/-- A report on files, and on the first and the others of them. -/
theorem checkFiles_cons (h : a.checkFiles tree (path :: paths) = .ok report) :
    ∃ r rest, a.checkFile tree path = .ok r ∧ a.checkFiles tree paths = .ok rest ∧
      report = r ++ rest := by
  rw [checkFiles] at h
  cases hr : a.checkFile tree path with
  | error e =>
    rw [hr] at h
    cases h
  | ok r =>
    cases hrest : a.checkFiles tree paths with
    | error e =>
      rw [hr, hrest] at h
      cases h
    | ok rest =>
      rw [hr, hrest] at h
      exact ⟨r, rest, rfl, rfl, (Except.ok.inj h).symm⟩

/-- There is a report only when all files pass. -/
theorem passes_of_checkFiles (h : a.checkFiles tree paths = .ok report) :
    ∀ path ∈ paths, tree.Passes path := by
  induction paths generalizing report with
  | nil => exact List.forall_mem_nil _
  | cons path paths ih =>
    obtain ⟨r, rest, hr, hrest, -⟩ := checkFiles_cons h
    refine List.forall_mem_cons.2 ⟨?_, ih hrest⟩
    by_contra hpasses
    obtain ⟨e, he⟩ := FileTree.exists_stops hpasses
    rw [checkFile_error.2 he] at hr
    cases hr

theorem filesChecked_of_checkFiles (h : a.checkFiles tree paths = .ok report) :
    report.filesChecked = paths.length := by
  induction paths generalizing report with
  | nil =>
    obtain rfl := Except.ok.inj h
    rfl
  | cons path paths ih =>
    obtain ⟨r, rest, hr, hrest, rfl⟩ := checkFiles_cons h
    obtain ⟨text, -, hsource⟩ := checkFile_ok hr
    change r.filesChecked + rest.filesChecked = paths.length + 1
    rw [filesChecked_of_checkSource hsource, ih hrest, Nat.add_comm]

theorem file_of_checkFiles (h : a.checkFiles tree paths = .ok report) :
    ∀ l ∈ report.locations, ∃ path ∈ paths, l.file = Path.relativeTo path a.root := by
  induction paths generalizing report with
  | nil =>
    obtain rfl := Except.ok.inj h
    intro l hl
    cases hl
  | cons path paths ih =>
    obtain ⟨r, rest, hr, hrest, rfl⟩ := checkFiles_cons h
    obtain ⟨text, -, hsource⟩ := checkFile_ok hr
    intro l hl
    rcases Report.locations_append.1 hl with hl | hl
    · exact ⟨path, List.mem_cons_self, file_of_checkSource hsource l hl⟩
    · obtain ⟨p, hp, hfile⟩ := ih hrest l hl
      exact ⟨p, List.mem_cons_of_mem _ hp, hfile⟩

/-- What is said of a file is what is said of it alone, if no other file has its name. -/
theorem about_of_checkFiles (hnames : (paths.map (Path.relativeTo · a.root)).Nodup)
    (h : a.checkFiles tree paths = .ok report) (hpath : path ∈ paths)
    (htext : tree.readText path = .ok text) : ∃ alone, a.checkSource path text = .ok alone ∧
      report.about (Path.relativeTo path a.root) = (alone.violations, alone.fileErrors) := by
  induction paths generalizing report with
  | nil => cases hpath
  | cons first paths ih =>
    obtain ⟨r, rest, hr, hrest, rfl⟩ := checkFiles_cons h
    obtain ⟨firstText, hfirst, hsource⟩ := checkFile_ok hr
    obtain ⟨hname, hnames⟩ := List.nodup_cons.1 hnames
    rw [Report.about_append]
    rcases List.mem_cons.1 hpath with rfl | hpath
    · obtain rfl := Except.ok.inj (htext.symm.trans hfirst)
      have hnothing : rest.about (Path.relativeTo path a.root) = ([], []) := by
        refine Report.about_eq_nil fun l hl hfile => hname ?_
        obtain ⟨p, hp, hpfile⟩ := file_of_checkFiles hrest l hl
        exact List.mem_map.2 ⟨p, hp, hpfile.symm.trans hfile⟩
      refine ⟨r, hsource, ?_⟩
      rw [hnothing, Report.about_eq_self (file_of_checkSource hsource), List.append_nil,
        List.append_nil]
    · have hnothing : r.about (Path.relativeTo path a.root) = ([], []) := by
        refine Report.about_eq_nil fun l hl hfile => hname ?_
        exact List.mem_map.2 ⟨path, hpath, hfile.symm.trans (file_of_checkSource hsource l hl)⟩
      rw [hnothing]
      exact ih hnames hrest hpath

-- ---------------------------------------------------------------------------
-- The sorted report
-- ---------------------------------------------------------------------------

theorem run_eq (hfiles : a.files tree = .ok paths) :
    a.run tree = (a.checkFiles tree paths).map Report.sort := by
  rw [run, hfiles]

theorem run_error (hfiles : a.files tree = .ok paths) :
    a.run tree = .error e ↔ a.checkFiles tree paths = .error e := by
  rw [run_eq hfiles]
  cases a.checkFiles tree paths <;> simp [Except.map]

theorem run_ok (hfiles : a.files tree = .ok paths) (h : a.run tree = .ok report) :
    ∃ merged, a.checkFiles tree paths = .ok merged ∧ report = merged.sort := by
  rw [run_eq hfiles] at h
  obtain ⟨merged, hmerged, rfl⟩ := map_eq_ok.1 h
  exact ⟨merged, hmerged, rfl⟩

/-- An analysis ends with an error when a file does not pass, and never else. -/
theorem exists_run_error (hfiles : a.files tree = .ok paths) :
    (∃ e, a.run tree = .error e) ↔ ∃ path ∈ paths, ¬tree.Passes path := by
  constructor
  · rintro ⟨e, he⟩
    obtain ⟨before, path, after, rfl, -, hstops⟩ := checkFiles_error.1 ((run_error hfiles).1 he)
    exact ⟨path, by simp, fun hpasses => FileTree.not_stops hpasses hstops⟩
  · rintro ⟨path, hpath, hpasses⟩
    cases hrun : a.run tree with
    | error e => exact ⟨e, rfl⟩
    | ok report =>
      obtain ⟨merged, hmerged, -⟩ := run_ok hfiles hrun
      exact absurd (passes_of_checkFiles hmerged path hpath) hpasses

theorem about_of_run (hfiles : a.files tree = .ok paths)
    (hnames : (paths.map (Path.relativeTo · a.root)).Nodup) (h : a.run tree = .ok report)
    (hpath : path ∈ paths) (htext : tree.readText path = .ok text) :
    ∃ alone, a.checkSource path text = .ok alone ∧
      report.about (Path.relativeTo path a.root) = (alone.sort.violations, alone.fileErrors) := by
  obtain ⟨merged, hmerged, rfl⟩ := run_ok hfiles h
  obtain ⟨alone, halone, habout⟩ := about_of_checkFiles hnames hmerged hpath htext
  have hfile := file_of_checkSource halone
  have hself : alone.sort.about (Path.relativeTo path a.root) =
      (alone.sort.violations, alone.sort.fileErrors) :=
    Report.about_eq_self fun l hl => hfile l (Report.mem_locations_sort.1 hl)
  rw [sort_fileErrors_of_checkSource halone] at hself
  refine ⟨alone, halone, ?_⟩
  rw [Report.about_sort_congr (habout.trans (Report.about_eq_self hfile).symm), hself]

/-- What a report says of one file. A text that is no resource has its fault there and nothing else; a
resource has all violations that are found in it alone, in the order in which a single rule set finds
them. -/
structure SaysOf (a : Analysis) (report : Report) (path text : String) : Prop where
  fault : ∀ e, Resource.parse text = .error e →
    ∃ src, Source.ofText path a.root text.toList = .ok src ∧
      report.about (Path.relativeTo path a.root) = ([], [⟨src.location e.span, e.message⟩])
  resource : ∀ resource, Resource.parse text = .ok resource →
    ∃ alone, a.checkSource path text = .ok alone ∧
      (report.about (Path.relativeTo path a.root)).1.Perm alone.violations ∧
      (∀ rules, a.ruleSets = [rules] →
        (report.about (Path.relativeTo path a.root)).1 = alone.violations) ∧
      (report.about (Path.relativeTo path a.root)).2 = []

theorem saysOf_of_run (hfiles : a.files tree = .ok paths)
    (hnames : (paths.map (Path.relativeTo · a.root)).Nodup) (h : a.run tree = .ok report)
    (hpath : path ∈ paths) (htext : tree.readText path = .ok text) : a.SaysOf report path text := by
  obtain ⟨alone, halone, habout⟩ := about_of_run hfiles hnames h hpath htext
  obtain ⟨src, hsrc, hcase⟩ := checkSource_ok halone
  refine ⟨fun e he => ?_, fun resource hresource => ⟨alone, halone, ?_, fun rules hrules => ?_, ?_⟩⟩
  · obtain ⟨e', he', rfl⟩ | ⟨resource, hresource, -⟩ := hcase
    · obtain rfl := Except.error.inj (he.symm.trans he')
      exact ⟨src, hsrc, habout.trans (Prod.ext List.mergeSort_nil rfl)⟩
    · rw [he] at hresource
      cases hresource
  · rw [habout]
    exact alone.violations_sort.perm
  · rw [habout]
    exact sort_violations_of_checkSource halone hrules
  · obtain ⟨e, he, -⟩ | ⟨_, -, rfl⟩ := hcase
    · rw [hresource] at he
      cases he
    · rw [habout]

/-- Files are checked each by itself. An analysis ends with an error exactly when a file cannot be read
or has a carriage return, and the error is that of the first one. Otherwise all files are counted, and the
report says of each what is found in it alone, and nothing of any other file. So what is said of one file
stays when another one is changed, and so does the error, unless it is that of the file. -/
theorem run_isolated (hfiles : a.files tree = .ok paths)
    (hnames : (paths.map (Path.relativeTo · a.root)).Nodup) :
    ((∃ e, a.run tree = .error e) ↔ ∃ path ∈ paths, ¬tree.Passes path) ∧
      (∀ e, a.run tree = .error e ↔ ∃ before path after, paths = before ++ path :: after ∧
        (∀ p ∈ before, tree.Passes p) ∧ tree.Stops path e) ∧
      (∀ report, a.run tree = .ok report →
        report.filesChecked = paths.length ∧
          (∀ l ∈ report.locations, ∃ path ∈ paths, l.file = Path.relativeTo path a.root) ∧
          ∀ path ∈ paths, ∃ text, tree.readText path = .ok text ∧ a.SaysOf report path text) ∧
      ∀ tree' path, a.files tree' = .ok paths →
        (∀ p ∈ paths, p ≠ path → tree'.readText p = tree.readText p) →
        (tree.Passes path → tree'.Passes path → ∀ e, a.run tree' = .error e ↔ a.run tree = .error e) ∧
          ∀ report report', a.run tree = .ok report → a.run tree' = .ok report' →
            ∀ p ∈ paths, p ≠ path → report'.about (Path.relativeTo p a.root) =
              report.about (Path.relativeTo p a.root) := by
  refine ⟨exists_run_error hfiles, fun e => (run_error hfiles).trans checkFiles_error,
    fun report h => ?_, fun tree' path hfiles' hsame => ⟨fun hpasses hpasses' e => ?_, ?_⟩⟩
  · obtain ⟨merged, hmerged, rfl⟩ := run_ok hfiles h
    have hchecked : merged.filesChecked = paths.length := filesChecked_of_checkFiles hmerged
    refine ⟨hchecked, fun l hl => ?_, fun path hpath => ?_⟩
    · exact file_of_checkFiles hmerged l (Report.mem_locations_sort.1 hl)
    · obtain ⟨text, htext, -⟩ := passes_of_checkFiles hmerged path hpath
      exact ⟨text, htext, saysOf_of_run hfiles hnames h hpath htext⟩
  · rw [run_error hfiles', run_error hfiles]
    refine checkFiles_error_congr fun p hp => ?_
    by_cases hpath : p = path
    · exact .inl ⟨hpath ▸ hpasses, hpath ▸ hpasses'⟩
    · exact .inr (hsame p hp hpath)
  · intro report report' h h' p hp hne
    obtain ⟨merged, hmerged, -⟩ := run_ok hfiles h
    obtain ⟨text, htext, -⟩ := passes_of_checkFiles hmerged p hp
    obtain ⟨alone, halone, habout⟩ := about_of_run hfiles hnames h hp htext
    obtain ⟨alone', halone', habout'⟩ :=
      about_of_run hfiles' hnames h' hp ((hsame p hp hne).trans htext)
    obtain rfl := Except.ok.inj (halone.symm.trans halone')
    rw [habout, habout']

/-- Two files, the first of which is mended: the report on the second one stays. -/
theorem run_isolated_fault :
    ∃ (a : Analysis) (tree tree' : FileTree), a.files tree = .ok ["./a.ftl", "./b.ftl"] ∧
      a.files tree' = .ok ["./a.ftl", "./b.ftl"] ∧
      ∃ report report', a.run tree = .ok report ∧ a.run tree' = .ok report' ∧
        report.filesChecked = 2 ∧ (report.about "a.ftl").2.length = 1 ∧ report'.fileErrors = [] ∧
        ((report'.about "b.ftl").1.map (·.code)) = ["SY02"] ∧
        report'.about "b.ftl" = report.about "b.ftl" := by
  let second : String × FileNode := ("b.ftl", .file "a = \x7b b \x7d\n".toUTF8)
  let tree : FileTree := ⟨.folder [("a.ftl", .file "x\n".toUTF8), second], []⟩
  let tree' : FileTree := ⟨.folder [("a.ftl", .file "x = y\n".toUTF8), second], []⟩
  let a : Analysis := ⟨".", [.allEnabled], []⟩
  let report' : Report := ⟨[.of .unsupportedMessageReferences ⟨"b.ftl", 1, 7, 6, 1⟩
    "Message references are not supported."], [], 2⟩
  have hfiles : a.files tree = .ok ["./a.ftl", "./b.ftl"] := by cbv
  have hfiles' : a.files tree' = .ok ["./a.ftl", "./b.ftl"] := by cbv
  have hrun' : a.run tree' = .ok report' := by cbv
  have htext : tree.readText "./a.ftl" = .ok "x\n" := by cbv
  have htext' : tree.readText "./b.ftl" = .ok "a = \x7b b \x7d\n" := by cbv
  have hparse : Resource.parse "x\n" = .error ⟨.expectedToken '=', ⟨1, 2⟩⟩ := by cbv
  have hmap : ["./a.ftl", "./b.ftl"].map (Path.relativeTo · a.root) = ["a.ftl", "b.ftl"] := by cbv
  have hnames : (["./a.ftl", "./b.ftl"].map (Path.relativeTo · a.root)).Nodup := by
    rw [hmap]
    decide
  obtain ⟨hstops, -, hreport, hchange⟩ := run_isolated hfiles hnames
  have hpasses : ∀ path ∈ ["./a.ftl", "./b.ftl"], tree.Passes path := by
    intro path hpath
    obtain rfl | rfl : path = "./a.ftl" ∨ path = "./b.ftl" := by simpa using hpath
    · exact ⟨_, htext, by decide +kernel⟩
    · exact ⟨_, htext', by decide +kernel⟩
  obtain ⟨report, hrun⟩ : ∃ report, a.run tree = .ok report := by
    cases hrun : a.run tree with
    | ok report => exact ⟨report, rfl⟩
    | error e =>
      obtain ⟨path, hpath, hnot⟩ := hstops.1 ⟨e, hrun⟩
      exact absurd (hpasses path hpath) hnot
  obtain ⟨hchecked, -, hsays⟩ := hreport report hrun
  obtain ⟨text, hread, hfault, -⟩ := hsays "./a.ftl" List.mem_cons_self
  obtain rfl := Except.ok.inj (htext.symm.trans hread)
  obtain ⟨src, -, hfirst⟩ := hfault _ hparse
  have hname : Path.relativeTo "./a.ftl" a.root = "a.ftl" := by cbv
  have hname' : Path.relativeTo "./b.ftl" a.root = "b.ftl" := by cbv
  have hsame : ∀ p ∈ ["./a.ftl", "./b.ftl"], p ≠ "./a.ftl" → tree'.readText p = tree.readText p := by
    intro p hp hne
    obtain rfl : p = "./b.ftl" := by simpa [hne] using hp
    rw [htext']
    cbv
  have hsecond := (hchange tree' "./a.ftl" hfiles' hsame).2 report report' hrun hrun' "./b.ftl"
    (by simp) (by decide)
  rw [hname] at hfirst
  rw [hname'] at hsecond
  refine ⟨a, tree, tree', hfiles, hfiles', report, report', hrun, hrun', hchecked, ?_, rfl, ?_,
    hsecond⟩
  · rw [hfirst]
    rfl
  · decide +kernel

end Analysis

end MessageLint
