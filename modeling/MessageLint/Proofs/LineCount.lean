-- SUMMARY: Lines and columns are those that counting in the bytes of a text gives.
import MessageLint.Proofs.Cursor
import MessageLint.Proofs.LineIndex
import MessageLint.Proofs.Report

/-!
# Lines and columns by counting

A line index holds the offsets of line ends and looks positions up in them. The bytes of a text say the
same without an index: the line of an offset is one more than the number of line ends before it, and its
column counts from the byte behind the last of these (`Position.counted`). Line ends and carriage returns
are characters of one byte, and no other character has such a byte among its own, so the places of a
character among the characters of a text are the places of its byte among the bytes (`offsetsOf_eq`).
-/

namespace MessageLint

variable {ch : Char} {byte n : Nat} {bytes : List Nat}

-- ---------------------------------------------------------------------------
-- Counting
-- ---------------------------------------------------------------------------

/-- The offset behind the last line end before `offset`; without one, the start of the text. -/
def lineStart (bytes : List Nat) : Nat → Nat
  | 0 => 0
  | offset + 1 => if bytes[offset]? = some '\n'.toNat then offset + 1 else lineStart bytes offset

/-- The position of an offset, counted in the bytes of the text. -/
def Position.counted (bytes : List Nat) (offset : Nat) : Position :=
  ⟨1 + (bytes.take offset).count '\n'.toNat, offset - lineStart bytes offset + 1⟩

/-- The places below `n` where `byte` stands, ascending. -/
def placesBelow (byte : Nat) (bytes : List Nat) (n : Nat) : List Nat :=
  (List.range n).filter fun i => bytes[i]? = some byte

theorem placesBelow_succ (byte : Nat) (bytes : List Nat) (n : Nat) :
    placesBelow byte bytes (n + 1) =
      placesBelow byte bytes n ++ if bytes[n]? = some byte then [n] else [] := by
  rw [placesBelow, List.range_succ, List.filter_append, List.filter_singleton]
  simp [placesBelow]

theorem mem_placesBelow {i : Nat} : i ∈ placesBelow byte bytes n ↔ i < n ∧ bytes[i]? = some byte := by
  simp [placesBelow]

/-- As places ascend, those below a bound are the first of them. -/
theorem takeWhile_placesBelow (byte : Nat) (bytes : List Nat) (n more : Nat) :
    (placesBelow byte bytes (n + more)).takeWhile (· < n) = placesBelow byte bytes n := by
  have hbelow : ∀ i ∈ placesBelow byte bytes n, decide (i < n) = true := fun i hi =>
    decide_eq_true (mem_placesBelow.1 hi).1
  have hsplit : placesBelow byte bytes (n + more) = placesBelow byte bytes n ++
      ((List.range more).map (n + ·)).filter fun i => bytes[i]? = some byte := by
    rw [placesBelow, List.range_add, List.filter_append]
    rfl
  rw [hsplit, List.takeWhile_append_of_pos hbelow]
  refine (congrArg _ (List.eq_nil_iff_forall_not_mem.2 fun i hi => ?_)).trans (List.append_nil _)
  obtain ⟨j, -, rfl⟩ := List.mem_map.1 (List.mem_filter.1 ((List.takeWhile_prefix _).subset hi)).1
  have hlt : n + j < n := by simpa using List.mem_takeWhile_imp hi
  omega

theorem length_placesBelow (byte : Nat) (bytes : List Nat) (n : Nat) :
    (placesBelow byte bytes n).length = (bytes.take n).count byte := by
  induction n with
  | zero => rfl
  | succ n ih =>
    rw [placesBelow_succ, List.length_append, ih, List.take_add_one, List.count_append]
    cases hbyte : bytes[n]? with
    | none => rfl
    | some b => by_cases h : b = byte <;> simp [h]

/-- The last line end is the one right before the start of the line. -/
theorem lineStart_eq (bytes : List Nat) (n : Nat) : lineStart bytes n =
    ((placesBelow '\n'.toNat bytes n).getLast?.map (· + 1)).getD 0 := by
  induction n with
  | zero => rfl
  | succ n ih =>
    rw [placesBelow_succ, lineStart]
    split
    · simp
    · rw [List.append_nil]
      exact ih

-- ---------------------------------------------------------------------------
-- Characters and their bytes
-- ---------------------------------------------------------------------------

/-- The places of a one-byte character are those of its byte: longer characters have no such byte. -/
theorem mem_charBytes_iff (hbyte : byte < 128) : byte ∈ charBytes ch ↔ ch.toNat = byte := by
  have hvalid : ch.val.toNat < 0x110000 := by
    rcases ch.valid with h | ⟨-, h⟩
    · exact Nat.lt_trans h (by decide)
    · exact h
  unfold charBytes String.utf8EncodeChar Char.toNat
  dsimp only
  generalize ch.val.toNat = v at hvalid ⊢
  split_ifs <;>
    simp only [List.map_cons, List.map_nil, List.mem_cons, List.not_mem_nil, or_false,
      UInt8.toNat_ofNat'] <;>
    omega

theorem length_charBytes (ch : Char) : (charBytes ch).length = ch.utf8Size := by
  rw [charBytes, List.length_map, String.length_utf8EncodeChar]

theorem length_flatMap_charBytes (text : List Char) :
    (text.flatMap charBytes).length = byteLength text := by
  induction text with
  | nil => rfl
  | cons ch text ih => rw [List.flatMap_cons, List.length_append, length_charBytes, ih, byteLength]

theorem charBytes_eq_singleton (hch : ch.toNat < 128) : charBytes ch = [ch.toNat] := by
  have hlength : (charBytes ch).length = 1 := by
    rw [length_charBytes, Char.utf8Size_eq_one_iff, UInt32.le_iff_toNat_le]
    exact Nat.le_of_lt_succ hch
  obtain ⟨byte, hbytes⟩ := List.length_eq_one_iff.1 hlength
  have hmem : ch.toNat ∈ charBytes ch := (mem_charBytes_iff hch).2 rfl
  rw [hbytes, List.mem_singleton] at hmem
  rw [hbytes, hmem]

theorem placesBelow_append (byte : Nat) (front bytes : List Nat) (n : Nat) :
    placesBelow byte (front ++ bytes) (front.length + n) =
      placesBelow byte front front.length ++ (placesBelow byte bytes n).map (front.length + ·) := by
  rw [placesBelow, List.range_add, List.filter_append, List.filter_map]
  congr 1
  · refine List.filter_congr fun i hi => ?_
    rw [List.getElem?_append_left (List.mem_range.1 hi)]
  · have hright : ∀ i, (front ++ bytes)[front.length + i]? = bytes[i]? := fun i => by
      rw [List.getElem?_append_right (Nat.le_add_right ..), Nat.add_sub_cancel_left]
    simp only [placesBelow, Function.comp_def, hright]

/-- The offsets of a one-byte character are the places of its byte. -/
theorem offsetsOf_eq (hch : ch.toNat < 128) (text : List Char) (start : Nat) :
    offsetsOf ch start text =
      (placesBelow ch.toNat (text.flatMap charBytes) (byteLength text)).map (start + ·) := by
  induction text generalizing start with
  | nil => rfl
  | cons c text ih =>
    have hplaces : placesBelow ch.toNat (charBytes c) (charBytes c).length =
        if c = ch then [0] else [] := by
      split
      · next heq => rw [heq, charBytes_eq_singleton hch]; simp [placesBelow]
      · next hne =>
        have hnot : ch.toNat ∉ charBytes c := fun hmem =>
          hne (Char.toNat_inj.1 ((mem_charBytes_iff hch).1 hmem))
        refine List.filter_eq_nil_iff.2 fun i _ hi => hnot ?_
        exact List.mem_of_getElem? (by simpa using hi)
    rw [offsetsOf, List.flatMap_cons, byteLength_cons, ← length_charBytes, placesBelow_append, hplaces,
      ih (start + (charBytes c).length)]
    split <;> simp [Function.comp_def, Nat.add_assoc]

namespace LineIndex

/-- The line ends before an offset, by the bytes before it. -/
theorem before_eq {text : List Char} {offset : Nat} (h : offset ≤ byteLength text) :
    before ⟨offsetsOf '\n' 0 text⟩ offset =
      placesBelow '\n'.toNat (text.flatMap charBytes) offset := by
  obtain ⟨more, hmore⟩ := Nat.exists_eq_add_of_le h
  rw [before, offsetsOf_eq (by decide), hmore]
  simpa using takeWhile_placesBelow '\n'.toNat (text.flatMap charBytes) offset more

/-- A position is what counting gives. -/
theorem position_eq_counted {text : List Char} {offset : Nat} (h : offset ≤ byteLength text) :
    position ⟨offsetsOf '\n' 0 text⟩ offset = .counted (text.flatMap charBytes) offset := by
  rw [position, before_eq h, Position.counted, lineStart_eq, ← length_placesBelow]
  split
  · next lineEnd hlast =>
    have hlt : lineEnd < offset := (mem_placesBelow.1 (List.mem_of_getLast? hlast)).1
    simp only [hlast, Option.map_some, Option.getD_some, Position.mk.injEq]
    omega
  · next hlast =>
    rw [hlast, List.getLast?_eq_none_iff.1 hlast]
    rfl

theorem position_ne_of_lt (index : LineIndex) {a b : Nat} (h : a < b) :
    index.position a ≠ index.position b := by
  intro heq
  rcases index.position_lt h with hline | ⟨-, hcolumn⟩
  · exact Nat.lt_irrefl _ (heq ▸ hline)
  · exact Nat.lt_irrefl _ (heq ▸ hcolumn)

theorem ofText_eq (text : List Char) : ofText text =
    match (offsetsOf '\r' 0 text).head? with
    | some offset => .error ⟨(position ⟨offsetsOf '\n' 0 text⟩ offset).line, offset⟩
    | none => .ok ⟨offsetsOf '\n' 0 text⟩ := rfl

theorem ofText_ok {text : List Char} {index : LineIndex} (h : ofText text = .ok index) :
    index = ⟨offsetsOf '\n' 0 text⟩ := by
  rw [ofText_eq] at h
  split at h
  · cases h
  · exact (Except.ok.inj h).symm

/-- A text without lines is refused at its first carriage return, with the line of that. -/
theorem ofText_error {text : List Char} {e : CarriageReturn} (h : ofText text = .error e) :
    (text.flatMap charBytes)[e.offset]? = some '\r'.toNat ∧
      (∀ i < e.offset, (text.flatMap charBytes)[i]? ≠ some '\r'.toNat) ∧
      e.line = 1 + ((text.flatMap charBytes).take e.offset).count '\n'.toNat := by
  rw [ofText_eq, offsetsOf_eq (by decide)] at h
  split at h
  · next offset hfirst =>
    obtain rfl := Except.error.inj h
    simp only [Nat.zero_add, List.map_id'] at hfirst
    rw [placesBelow, List.head?_filter, List.find?_range_eq_some] at hfirst
    obtain ⟨hbyte, hlt, hbefore⟩ := hfirst
    have hle : offset < byteLength text := List.mem_range.1 hlt
    refine ⟨by simpa using hbyte, fun i hi => by simpa using hbefore i hi, ?_⟩
    rw [position_eq_counted (Nat.le_of_lt hle)]
    rfl
  · cases h

theorem exists_ofText_eq_error_iff {text : List Char} :
    (∃ e, ofText text = .error e) ↔ '\r' ∈ text := by
  refine ⟨fun ⟨e, he⟩ => ?_, exists_ofText_eq_error⟩
  by_contra hreturn
  rw [ofText_eq_ok hreturn] at he
  cases he

theorem counted_line_le (text : List Char) (offset : Nat) :
    (Position.counted (text.flatMap charBytes) offset).line ≤
      lineCount ⟨offsetsOf '\n' 0 text⟩ := by
  have hcount := (List.take_sublist offset (text.flatMap charBytes)).count_le '\n'.toNat
  rw [lineCount, offsetsOf_eq (by decide), List.length_map, length_placesBelow,
    ← length_flatMap_charBytes, List.take_length, Position.counted]
  dsimp only
  omega

/-- A source is refused at its first carriage return. Otherwise positions are those that counting in its
bytes gives, their lines are lines of the source, and a later offset has a later position: no two offsets
have the same. -/
theorem ofText_counted (source : String) :
    ((∃ e, ofText source.toList = .error e) ↔ '\r' ∈ source.toList) ∧
    (∀ e, ofText source.toList = .error e →
      (utf8Bytes source)[e.offset]? = some '\r'.toNat ∧
      (∀ i < e.offset, (utf8Bytes source)[i]? ≠ some '\r'.toNat) ∧
      e.line = 1 + ((utf8Bytes source).take e.offset).count '\n'.toNat) ∧
    ∀ index, ofText source.toList = .ok index →
      (∀ offset ≤ source.utf8ByteSize,
        index.position offset = .counted (utf8Bytes source) offset ∧
        1 ≤ (index.position offset).line ∧ (index.position offset).line ≤ index.lineCount) ∧
      (∀ a b, a < b → (index.position a).line < (index.position b).line ∨
        (index.position a).line = (index.position b).line ∧
          (index.position a).column < (index.position b).column) ∧
      ∀ a b, index.position a = index.position b → a = b := by
  have hbytes : utf8Bytes source = source.toList.flatMap charBytes := by
    rw [← utf8Bytes_ofList, String.ofList_toList]
  rw [hbytes]
  refine ⟨exists_ofText_eq_error_iff, fun e => ofText_error, fun index hindex => ?_⟩
  obtain rfl := ofText_ok hindex
  refine ⟨fun offset hoffset => ?_, fun a b => position_lt _, fun a b heq => ?_⟩
  · rw [← byteLength_toList] at hoffset
    rw [position_eq_counted hoffset]
    exact ⟨rfl, Nat.le_add_right 1 _, counted_line_le _ _⟩
  · rcases Nat.lt_trichotomy a b with hlt | rfl | hlt
    · exact ((position_ne_of_lt _ hlt) heq).elim
    · rfl
    · exact ((position_ne_of_lt _ hlt) heq.symm).elim

end LineIndex

end MessageLint
