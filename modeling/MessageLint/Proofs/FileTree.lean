-- SUMMARY: Where paths lead, whatever they start from, and how deep a search for files goes.
import MessageLint.FileTree
import MessageLint.Proofs.Basic
import MessageLint.Proofs.Path

/-!
# Trees of files

A path is followed name by name. At its end is something that is there, and no link (`resolve_stands`). A
path that does not start with a slash leads where it leads from the top, with the path of the working
folder in front of it (`resolve_relative`). A search goes down along longer and longer paths, and a path
that is too long is a fault of its own, so the bound on the depth of a search is never what ends it
(`filesBelow_eq_files`).
-/

namespace MessageLint

open FileTree (Place)

-- ---------------------------------------------------------------------------
-- Places
-- ---------------------------------------------------------------------------

namespace FileNode

variable {top : FileNode} {place : Place} {name : String} {entries : List (String × FileNode)}

theorem at?_append (top : FileNode) (place names : Place) :
    top.at? (place ++ names) = (top.at? place).bind (at? names) := by
  induction place generalizing top with
  | nil => rfl
  | cons name place ih =>
    rw [List.cons_append, at?, at?, Option.bind_assoc]
    exact Option.bind_congr fun child _ => ih child

theorem at?_concat (h : top.at? place = some (.folder entries)) :
    top.at? (place ++ [name]) = entries.lookup name := by
  rw [at?_append, h, Option.bind_some, at?, child?]
  cases entries.lookup name <;> rfl

/-- Above a folder is a folder. -/
theorem exists_folder {names : Place} (h : top.at? (place ++ names) = some (.folder entries)) :
    ∃ entries, top.at? place = some (.folder entries) := by
  rw [at?_append] at h
  obtain ⟨node, hnode, hbelow⟩ := Option.bind_eq_some_iff.1 h
  cases names with
  | nil =>
    obtain rfl := Option.some.inj hbelow
    exact ⟨entries, hnode⟩
  | cons name names =>
    cases node with
    | folder entries => exact ⟨entries, hnode⟩
    | file | link => simp [at?, child?] at hbelow

/-- A file or a folder stands at the place. -/
def Stands (top : FileNode) (place : Place) : Prop :=
  ∃ node, top.at? place = some node ∧ ∀ target, node ≠ .link target

theorem stands_folder (h : top.at? place = some (.folder entries)) : top.Stands place :=
  ⟨_, h, fun _ => FileNode.noConfusion⟩

theorem stands_dropLast (h : top.at? place = some (.folder entries)) : top.Stands place.dropLast := by
  rcases List.eq_nil_or_concat place with rfl | ⟨above, name, rfl⟩
  · exact stands_folder h
  · rw [List.concat_eq_append] at h ⊢
    rw [List.dropLast_concat]
    obtain ⟨entries, habove⟩ := exists_folder h
    exact stands_folder habove

end FileNode

namespace FileTree

variable {tree : FileTree} {top : FileNode} {makes : Bool} {links : Nat} {place target : Place}
  {rest : List String} {path name : String}

-- ---------------------------------------------------------------------------
-- Where a path ends
-- ---------------------------------------------------------------------------

theorem steps_ne_nil (path : String) : steps path ≠ [] := by
  rw [steps, splitOn_eq]
  simp [List.splitOn_ne_nil]

theorem follow_stands {steps : List String} (h : follow top false links place steps = .ok target)
    (hplace : steps = [] → top.Stands place) : top.Stands target := by
  fun_induction follow top false links place steps with
  | case1 links place => exact Except.ok.inj h ▸ hplace rfl
  | case2 links place step rest entries hfolder _ ih =>
    exact ih h fun _ => FileNode.stands_folder hfolder
  | case3 links place rest entries hfolder _ ih =>
    exact ih h fun _ => FileNode.stands_dropLast hfolder
  | case6 _ _ _ _ _ _ _ _ _ _ _ hmakes => simp at hmakes
  | case9 _ _ _ _ _ _ _ _ _ linked _ _ ih =>
    exact ih h fun hnil => absurd (List.append_eq_nil_iff.1 hnil).1 (steps_ne_nil linked)
  | case10 links place step rest entries hfolder _ _ _ _ node hlink hnode ih =>
    refine ih h fun _ => ⟨node, ?_, hlink⟩
    rw [FileNode.at?_concat hfolder, hnode]
  | case4 | case5 | case7 | case8 | case11 | case12 => cases h

/-- Where a path leads, there is a file or a folder. -/
theorem resolve_stands (h : tree.resolve false path = .ok place) : tree.top.Stands place := by
  unfold resolve at h
  split_ifs at h
  exact follow_stands h fun hnil => absurd hnil (steps_ne_nil path)

-- ---------------------------------------------------------------------------
-- Names of files
-- ---------------------------------------------------------------------------

/-- A name that a file may have. -/
structure IsFileName (name : String) : Prop where
  not_step : name ∉ ["", ".", ".."]
  no_slash : '/' ∉ name.toList
  no_zero : '\x00' ∉ name.toList
  short : name.utf8ByteSize ≤ maxNameBytes

/-- All files and folders in the tree have such names. -/
def Proper (tree : FileTree) : Prop :=
  ∀ place entries, tree.top.at? place = some (.folder entries) →
    ∀ entry ∈ entries, IsFileName entry.1

-- ---------------------------------------------------------------------------
-- Paths from the working folder
-- ---------------------------------------------------------------------------

theorem follow_empty {entries : List (String × FileNode)}
    (h : top.at? place = some (.folder entries)) :
    follow top makes links place ("" :: rest) = follow top makes links place rest := by
  rw [follow, h]
  simp

/-- From folder to folder down to a place, if more than slashes follows. -/
theorem follow_names {names : List String} {entries : List (String × FileNode)}
    (hnames : ∀ name ∈ names, IsFileName name)
    (h : top.at? (place ++ names) = some (.folder entries)) (hrest : ∃ step ∈ rest, step ≠ "") :
    follow top makes links place (names ++ rest) = follow top makes links (place ++ names) rest := by
  induction names generalizing place with
  | nil => simp
  | cons name names ih =>
    obtain ⟨hname, hnames⟩ := List.forall_mem_cons.1 hnames
    rw [List.append_cons] at h
    obtain ⟨inner, hinner⟩ := FileNode.exists_folder h
    obtain ⟨outer, houter⟩ := FileNode.exists_folder hinner
    have hlookup : outer.lookup name = some (.folder inner) :=
      (FileNode.at?_concat houter).symm.trans hinner
    have hstep := hname.not_step
    simp only [List.mem_cons, List.not_mem_nil, or_false, not_or] at hstep
    have hmore : (names ++ rest).all (· = "") = false := by
      obtain ⟨last, hlast, hne⟩ := hrest
      exact List.all_eq_false.2 ⟨last, List.mem_append_right names hlast, by simpa using hne⟩
    rw [List.cons_append, follow, houter]
    simp only [hstep, hmore, hlookup, or_self, if_false, Bool.and_false, Bool.false_eq_true,
      Nat.not_lt.2 hname.short]
    rw [ih hnames h, List.append_assoc]
    rfl

theorem steps_append_slash (front back : String) :
    steps (front ++ "/" ++ back) = steps front ++ steps back := by
  have hslash : (front ++ "/" ++ back).toList = front.toList ++ '/' :: back.toList := by simp
  rw [steps, hslash, splitOn_eq, List.splitOn_append_cons_self, List.map_append, ← splitOn_eq,
    ← splitOn_eq]
  rfl

theorem steps_intercalate {names : List String} (hnames : ∀ name ∈ names, IsFileName name)
    (hne : names ≠ []) : steps ("/".intercalate names) = names := by
  have hpieces : ∀ piece ∈ names.map String.toList, '/' ∉ piece := by
    intro piece hpiece
    obtain ⟨name, hname, rfl⟩ := List.mem_map.1 hpiece
    exact (hnames name hname).no_slash
  rw [steps, String.toList_intercalate, splitOn_eq]
  change (((['/'] : List Char).intercalate (names.map String.toList)).splitOn '/').map _ = _
  rw [List.splitOn_intercalate '/' hpieces (by simpa using hne), List.map_map]
  simp [Function.comp_def]

theorem exists_step_ne_empty (hpath : path ≠ "") (hslash : path.startsWith "/" = false) :
    ∃ step ∈ steps path, step ≠ "" := by
  obtain ⟨c, cs, hcs⟩ := List.exists_cons_of_ne_nil fun h => hpath (String.toList_eq_nil_iff.1 h)
  have hc : c ≠ '/' := by
    rintro rfl
    rw [Bool.eq_false_iff, Ne, String.startsWith_string_iff, hcs] at hslash
    exact hslash (List.prefix_append ['/'] cs)
  obtain ⟨piece, pieces, hsplit⟩ := List.exists_cons_of_ne_nil (List.splitOn_ne_nil '/' cs)
  refine ⟨String.ofList (c :: piece), ?_, fun h => ?_⟩
  · rw [steps, hcs, splitOn, splitOn_eq, hsplit, if_neg (by simpa using hc)]
    exact List.mem_cons_self
  · cases String.ofList_eq_empty_iff.1 h

/-- The path of a place holds no zero byte. -/
theorem zero_notMem_pathOf {names : Place} (hnames : ∀ name ∈ names, IsFileName name) :
    '\x00' ∉ (pathOf names).toList := by
  rw [pathOf, String.toList_append, String.toList_intercalate]
  cases names with
  | nil => decide
  | cons name names =>
    have hpieces : ∀ name ∈ names, '\x00' ∉ '/' :: name.toList := fun name hname =>
      List.not_mem_cons_of_ne_of_not_mem (by decide)
        (hnames name (List.mem_cons_of_mem _ hname)).no_zero
    have hname := (hnames name List.mem_cons_self).no_zero
    change '\x00' ∉ ['/'] ++ ['/'].intercalate (name.toList :: names.map String.toList)
    rw [intercalate_singleton_cons]
    simpa [hname] using hpieces

/-- Behind the path of a folder a path is followed from that folder. -/
theorem follow_pathOf {entries : List (String × FileNode)}
    (hplace : top.at? place = some (.folder entries)) (hnames : ∀ name ∈ place, IsFileName name)
    (hpath : path ≠ "") (hslash : path.startsWith "/" = false) :
    follow top makes links [] (steps (pathOf place ++ "/" ++ path)) =
      follow top makes links place (steps path) := by
  obtain ⟨root, hroot⟩ : ∃ root, top.at? [] = some (.folder root) := FileNode.exists_folder hplace
  have hsteps : steps (pathOf place ++ "/" ++ path) =
      "" :: (steps ("/".intercalate place) ++ steps path) := by
    rw [steps_append_slash, pathOf, ← @String.empty_append "/", steps_append_slash]
    rfl
  rw [hsteps, follow_empty hroot]
  rcases eq_or_ne place [] with rfl | hne
  · exact follow_empty hroot
  · rw [steps_intercalate hnames hne]
    exact follow_names hnames hplace (exists_step_ne_empty hpath hslash)

/-- Where a path leads from the working folder, it leads from the top with the path of that folder in
front of it, unless it gets too long. -/
theorem resolve_relative {entries : List (String × FileNode)}
    (hworking : tree.top.at? tree.working = some (.folder entries))
    (hnames : ∀ name ∈ tree.working, IsFileName name) (hpath : path ≠ "")
    (hslash : path.startsWith "/" = false)
    (hsize : (pathOf tree.working ++ "/" ++ path).utf8ByteSize ≤ maxPathBytes) :
    tree.resolve makes path = tree.resolve makes (pathOf tree.working ++ "/" ++ path) := by
  have hzero : (pathOf tree.working ++ "/" ++ path).contains '\x00' = path.contains '\x00' := by
    rw [String.contains_char_eq, String.contains_char_eq]
    simp [zero_notMem_pathOf hnames]
  have hshort : path.utf8ByteSize ≤ maxPathBytes := by
    rw [String.utf8ByteSize_append] at hsize
    omega
  have hstart : (pathOf tree.working ++ "/" ++ path).startsWith "/" = true := by
    rw [String.startsWith_string_iff, pathOf]
    simp
  rw [resolve, resolve, hzero, if_neg (Nat.not_lt.2 hsize), if_neg (Nat.not_lt.2 hshort), startOf,
    startOf, if_pos hstart, hslash, follow_pathOf hworking hnames hpath hslash]
  simp [hpath]

-- ---------------------------------------------------------------------------
-- How deep a search goes
-- ---------------------------------------------------------------------------

section Join

variable (hname : IsFileName name)

include hname

theorem IsFileName.not_startsWith : name.startsWith "/" = false := by
  rw [Bool.eq_false_iff, Ne, String.startsWith_string_iff]
  rintro ⟨tail, htail⟩
  exact hname.no_slash (htail ▸ List.mem_cons_self)

/-- The path of an entry is longer than that of its folder. -/
theorem utf8ByteSize_join (hpath : path ≠ "") :
    path.utf8ByteSize < (Path.join path name).utf8ByteSize := by
  have hlong : name.utf8ByteSize ≠ 0 := fun h =>
    hname.not_step (by simp [String.utf8ByteSize_eq_zero_iff.1 h])
  rw [Path.join, hname.not_startsWith]
  split_ifs with hfirst hslash
  · simp [hpath] at hfirst
  · rw [String.utf8ByteSize_append]
    omega
  · rw [String.utf8ByteSize_append, String.utf8ByteSize_append]
    omega

theorem zero_notMem_join (hzero : '\x00' ∉ path.toList) :
    '\x00' ∉ (Path.join path name).toList := by
  unfold Path.join
  split_ifs <;> simp [hname.no_zero, hzero]

end Join

theorem filesBelow_of_error {fault : FileFault} (h : tree.resolve false path = .error fault)
    (depth : Nat) (above : List (Place × String)) :
    tree.filesBelow (depth + 1) above path = .error (.unreadable path fault) := by
  rw [filesBelow, h]

theorem filesBelow_of_long (hzero : '\x00' ∉ path.toList) (hlong : maxPathBytes < path.utf8ByteSize)
    (depth : Nat) (above : List (Place × String)) :
    tree.filesBelow depth above path = .error (.unreadable path .nameTooLong) := by
  cases depth with
  | zero => rfl
  | succ depth =>
    have hcontains : path.contains '\x00' = false := by simpa [String.contains_char_eq] using hzero
    refine filesBelow_of_error ?_ depth above
    rw [resolve, hcontains, if_neg Bool.false_ne_true, if_pos hlong]

/-- Any two bounds that a path has to be too long to reach make no difference. -/
theorem filesBelow_depth (h : tree.Proper) (hpath : path ≠ "") (hzero : '\x00' ∉ path.toList)
    {depth depth' : Nat} (hdepth : maxPathBytes < depth + path.utf8ByteSize)
    (hdepth' : maxPathBytes < depth' + path.utf8ByteSize) (above : List (Place × String)) :
    tree.filesBelow depth above path = tree.filesBelow depth' above path := by
  induction depth generalizing depth' path above with
  | zero =>
    rw [filesBelow_of_long hzero (by omega), filesBelow_of_long hzero (by omega)]
  | succ depth ih =>
    cases depth' with
    | zero => rw [filesBelow_of_long hzero (by omega), filesBelow_of_long hzero (by omega)]
    | succ depth' =>
      rw [filesBelow, filesBelow]
      split
      · rfl
      · next place hplace =>
        split
        · next entries hentries =>
          have hbelow (name : String) (hname : IsFileName name) (above : List (Place × String)) :
              tree.filesBelow depth above (Path.join path name) =
                tree.filesBelow depth' above (Path.join path name) := by
            have hgrows := utf8ByteSize_join hname hpath
            refine ih ?_ (zero_notMem_join hname hzero) (by omega) (by omega) above
            rintro hempty
            rw [hempty] at hgrows
            exact absurd hgrows (Nat.not_lt_zero _)
          dsimp only
          congr 1
          refine mapM_congr fun entry hentry => ?_
          have hname := h place entries hentries entry hentry
          obtain ⟨name, node⟩ := entry
          cases node with
          | file content => rfl
          | folder inner => exact hbelow name hname _
          | link target => simp only [hbelow name hname]
        · rfl

/-- A search may go as deep as the longest path: what is found does not hang on the bound. -/
theorem filesBelow_eq_files (h : tree.Proper) {depth : Nat} (hdepth : maxPathBytes < depth) :
    tree.filesBelow depth [] path = tree.files path := by
  obtain ⟨depth, rfl⟩ := Nat.exists_eq_add_of_lt hdepth
  by_cases hzero : '\x00' ∈ path.toList
  · have hfault : tree.resolve false path = .error .zeroInPath := by
      rw [resolve, if_pos (by simpa [String.contains_char_eq] using hzero)]
    rw [files, filesBelow_of_error hfault, filesBelow_of_error hfault]
  by_cases hpath : path = ""
  · have hfault : tree.resolve false path = .error .notFound := by
      simp [resolve, hpath, String.contains_char_eq]
    rw [files, filesBelow_of_error hfault, filesBelow_of_error hfault]
  · exact filesBelow_depth h hpath hzero (by omega) (by omega) []

end FileTree

end MessageLint
