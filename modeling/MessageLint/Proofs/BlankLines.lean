-- SUMMARY: Blank lines end at one offset only, and skipping them finds it.
import MessageLint.Grammar.Parser
import MessageLint.Proofs.LineCount

/-!
# Where blank lines end

Blank lines are skipped by characters, with a second cursor that stays at the start of the line. In the
bytes of a source the same is a search with two offsets (`blankLinesEnd`), which may begin at any byte.
What it finds is told without it (`EndsBlank`): everything up to there is blank, and there either the
source ends or a line goes on that holds something. No other offset is like that, so both ways of skipping
come to the same place.
-/

namespace MessageLint

variable {bytes : List Nat} {p r s : Nat}

-- ---------------------------------------------------------------------------
-- Blank bytes
-- ---------------------------------------------------------------------------

/-- At `i` stands a space or a line end. -/
def BlankAt (bytes : List Nat) (i : Nat) : Prop :=
  bytes[i]? = some ' '.toNat ∨ bytes[i]? = some '\n'.toNat

/-- The first byte from `i` on that is no space is there, and is no line end. -/
def HoldsFrom (bytes : List Nat) (i : Nat) : Prop :=
  ∃ k, i ≤ k ∧ (∀ j, i ≤ j → j < k → bytes[j]? = some ' '.toNat) ∧ k < bytes.length ∧ ¬BlankAt bytes k

/-- Blank lines that are skipped from `p` on end at `r`: at the end of the source, or where a line that
holds something starts, which may have begun in front of `p`. -/
structure EndsBlank (bytes : List Nat) (p r : Nat) : Prop where
  le : p ≤ r
  blank : ∀ i, p ≤ i → i < r → BlankAt bytes i
  stop : r = bytes.length ∨
    (r = p ∨ ∃ k, k + 1 = r ∧ bytes[k]? = some '\n'.toNat) ∧ HoldsFrom bytes r

namespace EndsBlank

theorem le_length (h : EndsBlank bytes p r) : r ≤ bytes.length := by
  rcases h.stop with hend | ⟨-, hholds⟩
  · exact Nat.le_of_eq hend
  · obtain ⟨i, hle, -, hlt, -⟩ := hholds
    omega

/-- No two offsets are both the end: between them stood a line end in front of what the line holds. -/
private theorem not_lt (h : EndsBlank bytes p r) (k : EndsBlank bytes p s) : ¬r < s := by
  intro hlt
  have hs := k.le_length
  rcases h.stop with hend | ⟨-, i, hri, hspaces, hi, hnot⟩
  · omega
  · have hout : s ≤ i :=
      Nat.le_of_not_lt fun hin => hnot (k.blank i (Nat.le_trans h.le hri) hin)
    rcases k.stop with hend | ⟨hstart | ⟨j, rfl, hbreak⟩, -⟩
    · omega
    · have := h.le
      omega
    · have hspace := hspaces j (Nat.le_of_lt_succ hlt) hout
      rw [hbreak] at hspace
      exact absurd hspace (by decide)

theorem unique (h : EndsBlank bytes p r) (k : EndsBlank bytes p s) : r = s :=
  Nat.le_antisymm (Nat.le_of_not_lt (k.not_lt h)) (Nat.le_of_not_lt (h.not_lt k))

/-- The end is that of the source just when all the rest of it is blank. -/
theorem eq_length_iff (h : EndsBlank bytes p r) :
    r = bytes.length ↔ ∀ i, p ≤ i → i < bytes.length → BlankAt bytes i := by
  refine ⟨fun hend i hle hlt => h.blank i hle (hend ▸ hlt), fun hall => ?_⟩
  rcases h.stop with hend | ⟨-, hholds⟩
  · exact hend
  · obtain ⟨i, hle, -, hlt, hnot⟩ := hholds
    exact absurd (hall i (Nat.le_trans h.le hle) hlt) hnot

/-- Where the source does not end, no line end is skipped only if nothing is. -/
theorem count_eq_zero_iff (h : EndsBlank bytes p r) (hlt : r < bytes.length) :
    (bytes.extract p r).count '\n'.toNat = 0 ↔ r = p := by
  constructor
  · intro hnone
    rcases h.stop with hend | ⟨hstart | ⟨k, rfl, hline⟩, -⟩
    · omega
    · exact hstart
    · by_contra hne
      have hle := h.le
      refine List.count_eq_zero.1 hnone (List.mem_of_getElem? (i := k - p) ?_)
      rw [getElem?_extract_sub (by omega) (by omega), hline]
  · rintro rfl
    simp

end EndsBlank

-- ---------------------------------------------------------------------------
-- Searching in bytes
-- ---------------------------------------------------------------------------

/-- The first offset from `p` on where no space stands. -/
def spacesEnd (bytes : List Nat) (p : Nat) : Nat :=
  if bytes[p]? = some ' '.toNat then spacesEnd bytes (p + 1) else p
termination_by bytes.length - p
decreasing_by
  have := (List.getElem?_eq_some_iff.1 ‹_›).1
  omega

theorem le_spacesEnd (bytes : List Nat) (p : Nat) : p ≤ spacesEnd bytes p := by
  fun_induction spacesEnd bytes p with
  | case1 p _ ih => omega
  | case2 => exact Nat.le_refl _

/-- The offset where blank lines that are skipped from `p` on end: the start of the first line that holds
something, or the end of the source. -/
def blankLinesEnd (bytes : List Nat) (p : Nat) : Nat :=
  match h : bytes[spacesEnd bytes p]? with
  | none => spacesEnd bytes p
  | some byte => if byte = '\n'.toNat then blankLinesEnd bytes (spacesEnd bytes p + 1) else p
termination_by bytes.length - p
decreasing_by
  have := (List.getElem?_eq_some_iff.1 h).1
  have := le_spacesEnd bytes p
  omega

theorem spaces_of_lt_spacesEnd {j : Nat} (hle : p ≤ j) (hlt : j < spacesEnd bytes p) :
    bytes[j]? = some ' '.toNat := by
  fun_induction spacesEnd bytes p with
  | case1 p hspace ih =>
    rcases Nat.eq_or_lt_of_le hle with rfl | hlt'
    · exact hspace
    · exact ih hlt' hlt
  | case2 => omega

theorem getElem?_spacesEnd_ne (bytes : List Nat) (p : Nat) :
    bytes[spacesEnd bytes p]? ≠ some ' '.toNat := by
  fun_induction spacesEnd bytes p with
  | case1 _ _ ih => exact ih
  | case2 _ hspace => exact hspace

theorem spacesEnd_le_length (hp : p ≤ bytes.length) : spacesEnd bytes p ≤ bytes.length := by
  fun_induction spacesEnd bytes p with
  | case1 p hspace ih => exact ih (List.getElem?_eq_some_iff.1 hspace).1
  | case2 => exact hp

/-- A blank line in front does not change where blank lines end. -/
private theorem EndsBlank.of_line (hline : bytes[spacesEnd bytes p]? = some '\n'.toNat)
    (h : EndsBlank bytes (spacesEnd bytes p + 1) r) : EndsBlank bytes p r := by
  have hle := le_spacesEnd bytes p
  have hge := h.le
  refine ⟨by omega, fun i hi hlt => ?_, ?_⟩
  · rcases Nat.lt_trichotomy i (spacesEnd bytes p) with hspace | rfl | hbehind
    · exact .inl (spaces_of_lt_spacesEnd hi hspace)
    · exact .inr hline
    · exact h.blank i hbehind hlt
  · rcases h.stop with hend | ⟨rfl | hbreak, hholds⟩
    · exact .inl hend
    · exact .inr ⟨.inr ⟨spacesEnd bytes p, rfl, hline⟩, hholds⟩
    · exact .inr ⟨.inr hbreak, hholds⟩

/-- From every offset of the source the search comes to an end of the blank lines. -/
theorem endsBlank_blankLinesEnd (hp : p ≤ bytes.length) :
    EndsBlank bytes p (blankLinesEnd bytes p) := by
  fun_induction blankLinesEnd bytes p with
  | case1 p hend =>
    have hlength := List.getElem?_eq_none_iff.1 hend
    refine ⟨le_spacesEnd bytes p, fun i hle hlt => .inl (spaces_of_lt_spacesEnd hle hlt), .inl ?_⟩
    exact Nat.le_antisymm (spacesEnd_le_length hp) hlength
  | case2 p hline ih => exact (ih (List.getElem?_eq_some_iff.1 hline).1).of_line hline
  | case3 p byte hbyte hline =>
    refine ⟨Nat.le_refl _, fun i hle hlt => by omega, .inr ⟨.inl rfl, ?_⟩⟩
    refine ⟨spacesEnd bytes p, le_spacesEnd bytes p, fun j hle hlt => ?_, ?_, ?_⟩
    · exact spaces_of_lt_spacesEnd hle hlt
    · exact (List.getElem?_eq_some_iff.1 hbyte).1
    · rintro (hspace | hbreak)
      · exact getElem?_spacesEnd_ne bytes p hspace
      · exact hline (Option.some.inj (hbyte.symm.trans hbreak))

-- ---------------------------------------------------------------------------
-- Cursors and bytes
-- ---------------------------------------------------------------------------

namespace Cursor

variable {c d : Cursor} {ch : Char} {text source : List Char} {i lines : Nat}

/-- At a cursor stands the first byte of its character. -/
theorem In.getElem?_offset (hc : c.In source) (hpeek : c.peek = some ch) :
    (source.flatMap charBytes)[c.offset]? = (charBytes ch).head? := by
  obtain ⟨before, hsource, hoffset⟩ := hc
  obtain ⟨rest, hrest⟩ := peek_eq_some.1 hpeek
  rw [hsource, hrest, hoffset, List.flatMap_append, ← length_flatMap_charBytes,
    List.getElem?_append_right (Nat.le_refl _), Nat.sub_self, List.flatMap_cons,
    ← List.head?_eq_getElem?, List.head?_append_of_ne_nil _ (charBytes_ne_nil ch)]

theorem In.getElem?_of_peek (hc : c.In source) (hpeek : c.peek = some ch) (hch : ch.toNat < 128) :
    (source.flatMap charBytes)[c.offset]? = some ch.toNat := by
  rw [hc.getElem?_offset hpeek, charBytes_eq_singleton hch, List.head?_cons]

theorem Reads.extract_bytes (h : c.Reads text d) (hc : c.In source) :
    (source.flatMap charBytes).extract c.offset d.offset = text.flatMap charBytes := by
  obtain ⟨before, hsource, hoffset⟩ := hc
  rw [hsource, h.rest, h.offset, hoffset, List.flatMap_append, List.flatMap_append,
    ← length_flatMap_charBytes, ← length_flatMap_charBytes, List.extract_eq_take_drop,
    List.drop_left, Nat.add_sub_cancel_left, List.take_left]

theorem flatMap_charBytes_of_ascii (h : ∀ ch ∈ text, ch.toNat < 128) :
    text.flatMap charBytes = text.map Char.toNat := by
  induction text with
  | nil => rfl
  | cons ch text ih =>
    obtain ⟨hch, htext⟩ := List.forall_mem_cons.1 h
    rw [List.flatMap_cons, charBytes_eq_singleton hch, ih htext, List.map_cons, List.singleton_append]

/-- In a text of one-byte characters, each byte is one of them. -/
theorem Reads.exists_getElem? (h : c.Reads text d) (hc : c.In source)
    (htext : ∀ ch ∈ text, ch.toNat < 128) (hle : c.offset ≤ i) (hlt : i < d.offset) :
    ∃ ch ∈ text, (source.flatMap charBytes)[i]? = some ch.toNat := by
  have hin : i - c.offset < (text.map Char.toNat).length := by
    have hlength := length_flatMap_charBytes text
    rw [flatMap_charBytes_of_ascii htext] at hlength
    have := h.offset
    omega
  obtain ⟨ch, hch, hbyte⟩ := List.mem_map.1 (List.getElem_mem hin)
  refine ⟨ch, hch, ?_⟩
  rw [← getElem?_extract_sub hle hlt, h.extract_bytes hc, flatMap_charBytes_of_ascii htext,
    List.getElem?_eq_getElem hin, hbyte]

theorem toNat_lt_of_isBlank (h : isBlank ch) : ch.toNat < 128 := by
  rcases (by simpa [isBlank] using h : ch = ' ' ∨ ch = '\n') with rfl | rfl <;> decide

/-- A line that holds something for the cursor does so in the bytes. -/
theorem holdsFrom_of_peek_skipSpaces (hc : c.In source) (hpeek : c.skipSpaces.peek = some ch)
    (hch : ch ≠ '\n') : HoldsFrom (source.flatMap charBytes) c.offset := by
  have hreads := c.reads_skipSpaces
  have hstop := hreads.in hc
  have hspaces : ∀ ch ∈ c.rest.takeWhile isSpace, ch = ' ' := fun ch hmem =>
    eq_space_of_isSpace (List.mem_takeWhile_imp hmem)
  have hbyte := hstop.getElem?_offset hpeek
  refine ⟨c.skipSpaces.offset, hreads.le, fun j hle hlt => ?_, ?_, ?_⟩
  · obtain ⟨space, hmem, hspace⟩ := hreads.exists_getElem? hc
      (fun ch hmem => by rw [hspaces ch hmem]; decide) hle hlt
    rw [hspace, hspaces space hmem]
  · refine Nat.lt_of_not_le fun hout => charBytes_ne_nil ch ?_
    rw [← List.head?_eq_none_iff, ← hbyte, List.getElem?_eq_none hout]
  · -- no byte of another character is that of a space or of a line end
    have hnot : ∀ blank : Char, blank.toNat < 128 → ch ≠ blank →
        (source.flatMap charBytes)[c.skipSpaces.offset]? ≠ some blank.toNat := by
      intro blank hsize hne heq
      rw [hbyte] at heq
      exact hne (Char.toNat_inj.1 ((mem_charBytes_iff hsize).1 (List.mem_of_mem_head? heq)))
    rintro (hspace | hline)
    · refine hnot ' ' (by decide) ?_ hspace
      rintro rfl
      exact absurd (peek_skipWhile hpeek) (by decide)
    · exact hnot '\n' (by decide) hch hline

/-- Skipping by characters comes to the end that the bytes have. -/
theorem EndsBlankLines.endsBlank (h : c.EndsBlankLines text lines d) (hc : c.In source) :
    EndsBlank (source.flatMap charBytes) c.offset d.offset := by
  have hd := h.reads.in hc
  refine ⟨h.reads.le, fun i hle hlt => ?_, ?_⟩
  · obtain ⟨ch, hmem, hbyte⟩ := h.reads.exists_getElem? hc
      (fun ch hmem => toNat_lt_of_isBlank (h.blank ch hmem)) hle hlt
    have hblank := h.blank ch hmem
    simp only [isBlank, Bool.or_eq_true, beq_iff_eq] at hblank
    rcases hblank with rfl | rfl
    · exact .inl hbyte
    · exact .inr hbyte
  · rcases h.stop with hend | ⟨htext, ch, hpeek, hch⟩
    · obtain ⟨before, hsource, hoffset⟩ := hd
      refine .inl ?_
      rw [hsource, hend, List.append_nil, length_flatMap_charBytes, hoffset]
    · refine .inr ⟨htext.imp (fun hnil => ?_) fun hlast => ?_, holdsFrom_of_peek_skipSpaces hd hpeek hch⟩
      · rw [h.reads.offset, hnil, byteLength_nil, Nat.add_zero]
      · obtain ⟨front, rfl⟩ := List.getLast?_eq_some_iff.1 hlast
        have hfront : c.Reads front ⟨'\n' :: d.rest, c.offset + byteLength front⟩ :=
          ⟨by rw [h.reads.rest, List.append_assoc]; rfl, rfl⟩
        refine ⟨c.offset + byteLength front, ?_, (hfront.in hc).getElem?_of_peek rfl (by decide)⟩
        rw [h.reads.offset, byteLength_append]
        rfl

theorem EndsBlankLines.count_bytes (h : c.EndsBlankLines text lines d) (hc : c.In source) :
    ((source.flatMap charBytes).extract c.offset d.offset).count '\n'.toNat = lines := by
  rw [h.reads.extract_bytes hc, h.count,
    flatMap_charBytes_of_ascii fun ch hmem => toNat_lt_of_isBlank (h.blank ch hmem)]
  exact List.count_map_of_injective text Char.toNat (fun _ _ => Char.toNat_inj.1) '\n'

end Cursor

/-- From every offset of a source, be it inside a character, the search finds where blank lines end, and
nothing else is their end. It is the end of the source just when all from there on is blank; before that,
no line end is skipped only if nothing is. A parser that skips blank lines comes to the same place, and
answers how many line ends there are up to it. -/
theorem skipBlankLines_endsBlank (source : String) :
    (∀ p ≤ source.utf8ByteSize,
      (∀ r, EndsBlank (utf8Bytes source) p r ↔ r = blankLinesEnd (utf8Bytes source) p) ∧
      (blankLinesEnd (utf8Bytes source) p = source.utf8ByteSize ↔
        ∀ i, p ≤ i → i < source.utf8ByteSize → BlankAt (utf8Bytes source) i) ∧
      (blankLinesEnd (utf8Bytes source) p < source.utf8ByteSize →
        (((utf8Bytes source).extract p (blankLinesEnd (utf8Bytes source) p)).count '\n'.toNat = 0 ↔
          blankLinesEnd (utf8Bytes source) p = p))) ∧
    ∀ c : Cursor, c.In source.toList →
      ∃ d : Cursor, d.In source.toList ∧ d.offset = blankLinesEnd (utf8Bytes source) c.offset ∧
        Parser.skipBlankLines c =
          .ok (((utf8Bytes source).extract c.offset d.offset).count '\n'.toNat, d) := by
  have hbytes : utf8Bytes source = source.toList.flatMap charBytes := by
    rw [← utf8Bytes_ofList, String.ofList_toList]
  have hlength : (utf8Bytes source).length = source.utf8ByteSize := by
    rw [hbytes, length_flatMap_charBytes, byteLength_toList]
  rw [← hlength]
  refine ⟨fun p hp => ?_, fun c hc => ?_⟩
  · have hends := endsBlank_blankLinesEnd hp
    refine ⟨fun r => ⟨fun h => h.unique hends, ?_⟩, hends.eq_length_iff, hends.count_eq_zero_iff⟩
    rintro rfl
    exact hends
  · obtain ⟨text, hlines⟩ := c.skipBlankLines_ends
    have hp : c.offset ≤ (utf8Bytes source).length := by
      rw [hlength, ← byteLength_toList]
      exact hc.offset_le
    rw [hbytes] at hp ⊢
    refine ⟨c.skipBlankLines.2, hlines.reads.in hc, ?_, ?_⟩
    · exact (hlines.endsBlank hc).unique (endsBlank_blankLinesEnd hp)
    · rw [hlines.count_bytes hc]
      rfl

end MessageLint
