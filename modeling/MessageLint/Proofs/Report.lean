-- SUMMARY: Reports of several files come out the same, in whatever order they are merged.
import MessageLint.Report
import MessageLint.Proofs.Sorting

/-!
# Merging reports

Reports are sorted by the bytes of the file name, the line and the column (`Location.key`). Reports of
different files have no key in common, so whatever has one key comes from one report, in the order
that it has there, and the sorted report does not show in which order they were merged.
-/

namespace MessageLint

-- ---------------------------------------------------------------------------
-- The order of file names
-- ---------------------------------------------------------------------------

/-- The bytes of a text in UTF-8. -/
def utf8Bytes (text : String) : List Nat := text.toUTF8.data.toList.map UInt8.toNat

/-- The bytes of a character in UTF-8. -/
def charBytes (ch : Char) : List Nat := (String.utf8EncodeChar ch).map UInt8.toNat

theorem utf8Bytes_ofList (text : List Char) : utf8Bytes (.ofList text) = text.flatMap charBytes := by
  rw [utf8Bytes, String.toUTF8_eq_toByteArray, String.toByteArray_ofList, List.utf8Encode,
    List.data_toByteArray, List.map_flatMap]
  rfl

theorem charBytes_ne_nil (ch : Char) : charBytes ch ≠ [] := by
  rw [charBytes, Ne, List.map_eq_nil_iff]
  exact String.utf8EncodeChar_ne_nil

/-- Of two characters, the later one has the later bytes, and neither starts with the other. -/
theorem charBytes_lt {c d : Char} (h : c < d) (x y : List Nat) :
    charBytes c ++ x < charBytes d ++ y := by
  have hlt : c.val.toNat < d.val.toNat := h
  have hd : d.val.toNat < 0x110000 := by
    rcases d.valid with h | ⟨-, h⟩
    · exact Nat.lt_trans h (by decide)
    · exact h
  unfold charBytes String.utf8EncodeChar
  dsimp only
  generalize c.val.toNat = m at hlt ⊢
  generalize d.val.toNat = n at hlt hd ⊢
  -- one case for each pair of lengths, from one byte to four
  split_ifs <;>
    simp only [List.map_cons, List.map_nil, List.cons_append, List.nil_append,
      List.cons_lt_cons_iff, UInt8.toNat_ofNat'] <;>
    simp (disch := omega) only [Nat.mod_eq_of_lt] <;>
    omega

theorem flatMap_charBytes_lt {s t : List Char} (h : s < t) :
    s.flatMap charBytes < t.flatMap charBytes := by
  induction h with
  | @nil ch _ =>
    obtain ⟨byte, bytes, hbytes⟩ := List.exists_cons_of_ne_nil (charBytes_ne_nil ch)
    rw [List.flatMap_nil, List.flatMap_cons, hbytes]
    exact List.nil_lt_cons ..
  | rel h =>
    rw [List.flatMap_cons, List.flatMap_cons]
    exact charBytes_lt h _ _
  | cons _ ih =>
    rw [List.flatMap_cons, List.flatMap_cons]
    exact List.append_left_lt ih

/-- Texts are in the order of their bytes. -/
theorem lt_iff_utf8Bytes {s t : String} : s < t ↔ utf8Bytes s < utf8Bytes t := by
  have forth {s t : String} (h : s < t) : utf8Bytes s < utf8Bytes t := by
    rw [← String.ofList_toList (s := s), ← String.ofList_toList (s := t), utf8Bytes_ofList,
      utf8Bytes_ofList]
    exact flatMap_charBytes_lt (String.lt_iff_toList_lt.1 h)
  refine ⟨forth, fun h => ?_⟩
  rcases lt_trichotomy s t with hlt | rfl | hlt
  · exact hlt
  · exact absurd h (lt_irrefl _)
  · exact absurd h (forth hlt).asymm

theorem utf8Bytes_injective : Function.Injective utf8Bytes := by
  intro s t h
  rcases lt_trichotomy s t with hlt | heq | hlt
  · exact absurd h (lt_iff_utf8Bytes.1 hlt).ne
  · exact heq
  · exact absurd h (lt_iff_utf8Bytes.1 hlt).ne'

-- ---------------------------------------------------------------------------
-- The order of locations
-- ---------------------------------------------------------------------------

/-- What a report is sorted by: the bytes of the file name, then the line, then the column. -/
def Location.key (l : Location) : List Nat ×ₗ Nat ×ₗ Nat :=
  toLex (utf8Bytes l.file, toLex (l.line, l.column))

theorem Location.le_iff {a b : Location} : a.le b ↔ a.key ≤ b.key := by
  have hfile : utf8Bytes a.file = utf8Bytes b.file ↔ a.file = b.file := utf8Bytes_injective.eq_iff
  simp only [le, key, Prod.Lex.toLex_le_toLex, hfile, ← lt_iff_utf8Bytes, Bool.or_eq_true,
    Bool.and_eq_true, decide_eq_true_eq, beq_iff_eq]

theorem Location.file_eq_of_key_eq {a b : Location} (h : a.key = b.key) : a.file = b.file :=
  utf8Bytes_injective (congrArg (fun k => (ofLex k).1) h)

-- ---------------------------------------------------------------------------
-- Merging
-- ---------------------------------------------------------------------------

namespace Report

variable {reports reports' : List Report}

/-- The places that a report speaks of. -/
def locations (r : Report) : List Location :=
  r.violations.map (·.location) ++ r.fileErrors.map (·.location)

/-- The two reports have no file in common. -/
def Apart (r s : Report) : Prop := ∀ a ∈ r.locations, ∀ b ∈ s.locations, a.file ≠ b.file

/-- Reports merged one after another. -/
def merged (reports : List Report) : Report := reports.foldl (· ++ ·) .empty

theorem foldl_append (reports : List Report) (r : Report) : reports.foldl (· ++ ·) r =
    ⟨r.violations ++ reports.flatMap (·.violations), r.fileErrors ++ reports.flatMap (·.fileErrors),
      r.filesChecked + (reports.map (·.filesChecked)).sum⟩ := by
  induction reports generalizing r with
  | nil => simp
  | cons s reports ih =>
    rw [List.foldl_cons, ih]
    simp only [List.flatMap_cons, List.map_cons, List.sum_cons, ← List.append_assoc, ← Nat.add_assoc]
    rfl

theorem merged_eq (reports : List Report) : merged reports =
    ⟨reports.flatMap (·.violations), reports.flatMap (·.fileErrors),
      (reports.map (·.filesChecked)).sum⟩ := by
  rw [merged, foldl_append]
  simp [empty]

theorem violations_merged (reports : List Report) :
    (merged reports).violations = reports.flatMap (·.violations) := by rw [merged_eq]

theorem fileErrors_merged (reports : List Report) :
    (merged reports).fileErrors = reports.flatMap (·.fileErrors) := by rw [merged_eq]

theorem violations_sort (r : Report) :
    Arranged (fun v => v.location.key) r.violations r.sort.violations := by
  refine arranged_mergeSort ?_ r.violations
  intro a b
  exact Location.le_iff

theorem fileErrors_sort (r : Report) :
    Arranged (fun e => e.location.key) r.fileErrors r.sort.fileErrors := by
  refine arranged_mergeSort ?_ r.fileErrors
  intro a b
  exact Location.le_iff

theorem sort_sort (r : Report) : r.sort.sort = r.sort := by
  have hviolations : r.sort.violations.mergeSort (fun a b => a.location.le b.location) =
      r.sort.violations :=
    List.mergeSort_of_pairwise (r.violations_sort.ordered.imp Location.le_iff.2)
  have herrors : r.sort.fileErrors.mergeSort (fun a b => a.location.le b.location) =
      r.sort.fileErrors :=
    List.mergeSort_of_pairwise (r.fileErrors_sort.ordered.imp Location.le_iff.2)
  conv_lhs => rw [sort, hviolations, herrors]

theorem Apart.violations {r s : Report} (h : r.Apart s) :
    ∀ v ∈ r.violations, ∀ w ∈ s.violations, v.location.key ≠ w.location.key := by
  intro v hv w hw hkey
  exact h _ (List.mem_append_left _ (List.mem_map_of_mem hv)) _
    (List.mem_append_left _ (List.mem_map_of_mem hw)) (Location.file_eq_of_key_eq hkey)

theorem Apart.fileErrors {r s : Report} (h : r.Apart s) :
    ∀ e ∈ r.fileErrors, ∀ f ∈ s.fileErrors, e.location.key ≠ f.location.key := by
  intro e he f hf hkey
  exact h _ (List.mem_append_right _ (List.mem_map_of_mem he)) _
    (List.mem_append_right _ (List.mem_map_of_mem hf)) (Location.file_eq_of_key_eq hkey)

theorem sort_merged_of_perm (hapart : reports.Pairwise Apart) (hperm : reports.Perm reports') :
    (merged reports).sort = (merged reports').sort := by
  have hviolations : (merged reports).sort.violations = (merged reports').sort.violations := by
    have hsorted := (merged reports).violations_sort
    have hsorted' := (merged reports').violations_sort
    rw [violations_merged] at hsorted hsorted'
    exact hsorted.joined hperm (hapart.imp Apart.violations) hsorted'
  have herrors : (merged reports).sort.fileErrors = (merged reports').sort.fileErrors := by
    have hsorted := (merged reports).fileErrors_sort
    have hsorted' := (merged reports').fileErrors_sort
    rw [fileErrors_merged] at hsorted hsorted'
    exact hsorted.joined hperm (hapart.imp Apart.fileErrors) hsorted'
  have hchecked : (merged reports).sort.filesChecked = (merged reports').sort.filesChecked := by
    change (merged reports).filesChecked = (merged reports').filesChecked
    rw [merged_eq, merged_eq]
    exact (hperm.map _).sum_eq
  calc (merged reports).sort
      = ⟨(merged reports).sort.violations, (merged reports).sort.fileErrors,
          (merged reports).sort.filesChecked⟩ := rfl
    _ = (merged reports').sort := by rw [hviolations, herrors, hchecked]

/-- Reports with no file in common give the same report when they are merged in any order and then
sorted. Sorting moves violations and errors into the order of file, line and column, keeps those at one
place as they were, and has nothing to do a second time. -/
theorem sort_merged (hapart : reports.Pairwise Apart) (hperm : reports.Perm reports') :
    (merged reports).sort = (merged reports').sort ∧
      Arranged (fun v => v.location.key) (merged reports).violations
        (merged reports).sort.violations ∧
      Arranged (fun e => e.location.key) (merged reports).fileErrors
        (merged reports).sort.fileErrors ∧
      (merged reports).sort.filesChecked = (reports.map (·.filesChecked)).sum ∧
      (merged reports).sort.sort = (merged reports).sort :=
  ⟨sort_merged_of_perm hapart hperm, (merged reports).violations_sort,
    (merged reports).fileErrors_sort, by rw [merged_eq]; rfl, (merged reports).sort_sort⟩

/-- Two violations at one place of a file stay as they were, behind the file that was merged last. -/
theorem sort_merged_ties :
    ∃ r s : Report, [r, s].Pairwise Apart ∧ [r, s].Perm [s, r] ∧
      (r.violations.map fun v => (v.location.short, v.code)) =
        [("b.ftl:1:5", "TE05"), ("b.ftl:1:5", "TE01")] ∧
      (s.violations.map fun v => (v.location.short, v.code)) = [("a.ftl:1:7", "SY02")] ∧
      (merged [r, s]).sort = (merged [s, r]).sort ∧
      (merged [r, s]).sort.violations = s.violations ++ r.violations := by
  let r : Report := ⟨[.of .threeDotEllipsis ⟨"b.ftl", 1, 5, 4, 1⟩ "",
    .of .straightApostrophe ⟨"b.ftl", 1, 5, 4, 1⟩ ""], [], 1⟩
  let s : Report := ⟨[.of .unsupportedMessageReferences ⟨"a.ftl", 1, 7, 6, 1⟩ ""], [], 1⟩
  have hapart : [r, s].Pairwise Apart := by
    refine List.pairwise_pair.2 ?_
    unfold Apart
    decide +kernel
  have hperm : [r, s].Perm [s, r] := .swap s r []
  have hsort := (sort_merged hapart hperm).1
  refine ⟨r, s, hapart, hperm, by decide +kernel, by decide +kernel, hsort, ?_⟩
  rw [hsort]
  exact List.mergeSort_of_pairwise (by decide +kernel)

-- ---------------------------------------------------------------------------
-- What is said of one file
-- ---------------------------------------------------------------------------

/-- The violations and the errors that a report gives for one file. -/
def about (file : String) (r : Report) : List Violation × List FileError :=
  (r.violations.filter (·.location.file == file), r.fileErrors.filter (·.location.file == file))

section About

variable {file : String} {r s : Report}

theorem about_append : (r ++ s).about file =
    ((r.about file).1 ++ (s.about file).1, (r.about file).2 ++ (s.about file).2) :=
  Prod.ext (List.filter_append ..) (List.filter_append ..)

theorem locations_append {l : Location} :
    l ∈ (r ++ s).locations ↔ l ∈ r.locations ∨ l ∈ s.locations := by
  change l ∈ (r.violations ++ s.violations).map _ ++ (r.fileErrors ++ s.fileErrors).map _ ↔ _
  simp only [locations, List.map_append, List.mem_append]
  tauto

theorem about_eq_self (h : ∀ l ∈ r.locations, l.file = file) :
    r.about file = (r.violations, r.fileErrors) := by
  refine Prod.ext (List.filter_eq_self.2 fun v hv => ?_) (List.filter_eq_self.2 fun e he => ?_)
  · exact beq_iff_eq.2 (h _ (List.mem_append_left _ (List.mem_map_of_mem hv)))
  · exact beq_iff_eq.2 (h _ (List.mem_append_right _ (List.mem_map_of_mem he)))

theorem about_eq_nil (h : ∀ l ∈ r.locations, l.file ≠ file) : r.about file = ([], []) := by
  refine Prod.ext (List.filter_eq_nil_iff.2 fun v hv hfile => ?_)
    (List.filter_eq_nil_iff.2 fun e he hfile => ?_)
  · exact h _ (List.mem_append_left _ (List.mem_map_of_mem hv)) (beq_iff_eq.1 hfile)
  · exact h _ (List.mem_append_right _ (List.mem_map_of_mem he)) (beq_iff_eq.1 hfile)

/-- Sorting puts in order what is said of a file, and does not look at the other files for it. -/
theorem about_sort_congr (h : r.about file = s.about file) :
    r.sort.about file = s.sort.about file := by
  obtain ⟨hviolations, herrors⟩ := Prod.ext_iff.1 h
  refine Prod.ext ?_ ?_
  · exact (r.violations_sort.filter _).unique (s.violations_sort.filter _) fun k =>
      congrArg (List.filter _) hviolations
  · exact (r.fileErrors_sort.filter _).unique (s.fileErrors_sort.filter _) fun k =>
      congrArg (List.filter _) herrors

theorem mem_locations_sort {l : Location} : l ∈ r.sort.locations ↔ l ∈ r.locations := by
  rw [locations, locations, List.mem_append, List.mem_append,
    (r.violations_sort.perm.map _).mem_iff, (r.fileErrors_sort.perm.map _).mem_iff]

end About

end Report

end MessageLint
