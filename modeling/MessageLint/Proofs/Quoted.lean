-- SUMMARY: Quoted texts are read exactly where their grammar allows one, and as what it says.
import MessageLint.Proofs.Canonical.Recovery

/-!
# Quoted texts

A quoted text is a row of pieces between two quotes, and each piece spells one character: itself, or one
that is escaped. `Spells` is this grammar. It says what the digits of an escape stand for in its own
words, base sixteen and the numbers of characters. Reading a quoted text is shown to go along with the
grammar in both directions: what is read was spelled by pieces (`stringLiteral_spells`), and what pieces
spell is read, whatever stands behind the last quote (`Spells.recovers`).
-/

namespace MessageLint

variable {ch : Char} {text value rest : List Char}

-- ---------------------------------------------------------------------------
-- The grammar
-- ---------------------------------------------------------------------------

/-- The digits of base sixteen, each at the index of its value. -/
def hexDigits : List Char :=
  ['0', '1', '2', '3', '4', '5', '6', '7', '8', '9', 'a', 'b', 'c', 'd', 'e', 'f']

/-- `digits` writes `n` in base sixteen, letters in either case. -/
def WritesHex (digits : List Char) (n : Nat) : Prop :=
  (∀ ch ∈ digits, ch.toLower ∈ hexDigits) ∧
    n = Nat.ofDigits 16 (digits.map fun ch => hexDigits.idxOf ch.toLower).reverse

/-- `ch` is the character with the number `n`, or stands in for it: surrogates and numbers past the last
plane belong to no character. -/
def Numbers (n : Nat) (ch : Char) : Prop :=
  if 0xd800 ≤ n ∧ n ≤ 0xdfff ∨ 0x10ffff < n then ch = '\ufffd' else ch.toNat = n

/-- `digits` are so many digits, and write the number of `ch`. -/
def WritesChar (count : Nat) (digits : List Char) (ch : Char) : Prop :=
  digits.length = count ∧ ∃ n, WritesHex digits n ∧ Numbers n ch

/-- A piece of a quoted text, and the character that it spells. -/
inductive SpellsChar : List Char → Char → Prop
  | plain {ch : Char} : ch ≠ '"' → ch ≠ '\\' → ch ≠ '\n' → SpellsChar [ch] ch
  | backslash : SpellsChar ['\\', '\\'] '\\'
  | quote : SpellsChar ['\\', '"'] '"'
  | short {digits : List Char} {ch : Char} :
      WritesChar 4 digits ch → SpellsChar ('\\' :: 'u' :: digits) ch
  | long {digits : List Char} {ch : Char} :
      WritesChar 6 digits ch → SpellsChar ('\\' :: 'U' :: digits) ch

/-- The text is a row of pieces that spell the characters of `value`. -/
def Spells (text value : List Char) : Prop :=
  ∃ pieces, List.Forall₂ SpellsChar pieces value ∧ text = pieces.flatten

theorem Spells.concat {piece : List Char} (h : Spells text value) (hpiece : SpellsChar piece ch) :
    Spells (text ++ piece) (value ++ [ch]) := by
  obtain ⟨pieces, hpieces, rfl⟩ := h
  exact ⟨pieces ++ [piece], List.rel_append hpieces (.cons hpiece .nil), by simp⟩

theorem SpellsChar.exists_head {piece : List Char} (h : SpellsChar piece ch) :
    ∃ first tail, piece = first :: tail ∧ first ≠ '"' := by
  cases h with
  | plain hquote => exact ⟨_, _, rfl, hquote⟩
  | backslash | quote | short | long => exact ⟨'\\', _, rfl, by decide⟩

-- ---------------------------------------------------------------------------
-- Digits
-- ---------------------------------------------------------------------------

theorem hexDigit?_eq (ch : Char) :
    hexDigit? ch =
      if ch.toLower ∈ hexDigits then some (hexDigits.idxOf ch.toLower) else none := by
  by_cases hascii : ch.toNat < 128
  · have key : ∀ n : Fin 128, hexDigit? (Char.ofNat n) =
        if (Char.ofNat n).toLower ∈ hexDigits then
          some (hexDigits.idxOf (Char.ofNat n).toLower) else none := by decide +kernel
    simpa using key ⟨ch.toNat, hascii⟩
  · -- no digit stands behind the last letter, and no capital either
    have habove : ∀ d : Char, d.toNat < 128 → ¬ch ≤ d := fun d hd hle =>
      hascii (Nat.lt_of_le_of_lt (UInt32.le_iff_toNat_le.1 (Char.le_def.1 hle)) hd)
    have hlower : ch.toLower = ch := by
      rw [Char.toLower, dif_neg]
      exact fun hupper => habove 'Z' (by decide) (Char.le_def.2 hupper.2)
    have hnone : ch ∉ hexDigits := fun hmem => by
      have hdigits : ∀ d ∈ hexDigits, d.toNat < 128 := by simp [hexDigits]
      exact hascii (hdigits ch hmem)
    rw [hlower, if_neg hnone, hexDigit?, if_neg, if_neg, if_neg]
    · exact fun h => habove 'F' (by decide) h.2
    · exact fun h => habove 'f' (by decide) h.2
    · exact fun h => habove '9' (by decide) h.2

theorem isSome_hexDigit? : (hexDigit? ch).isSome ↔ ch.toLower ∈ hexDigits := by
  rw [hexDigit?_eq]
  split <;> simp [*]

/-- A run of digits writes the number that they are read as. -/
theorem writesHex_iff {digits : List Char} {n : Nat} :
    WritesHex digits n ↔ (∀ ch ∈ digits, (hexDigit? ch).isSome) ∧ n = hexValue digits := by
  simp only [WritesHex, isSome_hexDigit?]
  refine and_congr_right fun hdigits => ?_
  have hvalues : digits.map (fun ch => hexDigits.idxOf ch.toLower) =
      digits.map fun ch => (hexDigit? ch).getD 0 := by
    refine List.map_congr_left fun ch hch => ?_
    rw [hexDigit?_eq, if_pos (hdigits ch hch), Option.getD_some]
  rw [hvalues, Nat.ofDigits_eq_foldr, List.foldr_reverse, List.foldl_map, hexValue]
  simp [Nat.add_comm]

theorem numbers_iff {n : Nat} : Numbers n ch ↔ (scalar? n).getD replacementCharacter = ch := by
  unfold Numbers scalar?
  split
  · next hnone =>
    rw [if_neg (by simp only [Nat.isValidChar]; omega)]
    exact eq_comm
  · next hsome =>
    have hvalid : n.isValidChar := by simp only [Nat.isValidChar]; omega
    rw [if_pos hvalid, Option.getD_some]
    constructor
    · rintro rfl
      exact Char.ofNat_toNat ch
    · rintro rfl
      rw [Char.toNat_ofNat, if_pos hvalid]

-- ---------------------------------------------------------------------------
-- What is read was spelled
-- ---------------------------------------------------------------------------

namespace Parser

variable {c d m : Cursor}

theorem unicodeEscape_writes {letter : Char} {count : Nat}
    (h : unicodeEscape m letter count c = .ok (ch, d)) :
    ∃ digits, c.next.Reads digits d ∧ WritesChar count digits ch := by
  obtain ⟨digits, rfl, hdigits, rfl, rfl⟩ := unicodeEscape_ok h
  have hprefix : digits <+: c.next.rest := by
    rw [hdigits]
    exact (List.takeWhile_prefix _).trans (List.take_prefix _ _)
  have hhex : ∀ ch ∈ digits, (hexDigit? ch).isSome := fun ch hch => by
    rw [hdigits] at hch
    exact List.mem_takeWhile_imp (p := fun ch => (hexDigit? ch).isSome) hch
  exact ⟨digits, Cursor.reads_advance_of_prefix hprefix, rfl, hexValue digits,
    writesHex_iff.2 ⟨hhex, rfl⟩, numbers_iff.2 rfl⟩

theorem quotedChar_spells (hquote : c.peek ≠ some '"') (h : quotedChar m c = .ok (ch, d)) :
    ∃ piece, c.Reads piece d ∧ SpellsChar piece ch := by
  obtain ⟨hslash, h⟩ | ⟨hline, hslash, hpeek, rfl⟩ := quotedChar_ok h
  · have hfirst := Cursor.reads_next_of_peek hslash
    obtain ⟨hletter, h⟩ | ⟨hletter, h⟩ | ⟨hch, hpeek, rfl⟩ := escape_ok h
    · obtain ⟨digits, hdigits, hwrites⟩ := unicodeEscape_writes h
      exact ⟨_, hfirst.trans ((Cursor.reads_next_of_peek hletter).trans hdigits), .short hwrites⟩
    · obtain ⟨digits, hdigits, hwrites⟩ := unicodeEscape_writes h
      exact ⟨_, hfirst.trans ((Cursor.reads_next_of_peek hletter).trans hdigits), .long hwrites⟩
    · have hreads := hfirst.trans (Cursor.reads_next_of_peek hpeek)
      rcases hch with rfl | rfl
      · exact ⟨_, hreads, .backslash⟩
      · exact ⟨_, hreads, .quote⟩
  · have hne : ch ≠ '"' := fun heq => hquote (heq ▸ hpeek)
    exact ⟨[ch], Cursor.reads_next_of_peek hpeek, .plain hne hslash hline⟩

/-- A quoted text that is read was spelled between two quotes. -/
theorem stringLiteral_spells {s : StringLiteral} (h : stringLiteral c = .ok (s, d)) :
    ∃ text, c.Reads ('"' :: (text ++ ['"'])) d ∧ Spells text s.value.toList ∧
      s.span = c.spanTo d := by
  obtain ⟨value, m, hopen, hvalue, hclose, rfl, rfl⟩ := stringLiteral_ok h
  have hinner := gather_induction
    (motive := fun seen d => ∃ text, c.next.Reads text d ∧ Spells text seen.reverse)
    (fun seen c' ch d ⟨text, hreads, hspells⟩ hmore hrun => by
      obtain ⟨piece, hpiece, hch⟩ := quotedChar_spells (by simpa using hmore) hrun
      rw [List.reverse_cons]
      exact ⟨text ++ piece, hreads.trans hpiece, hspells.concat hch⟩)
    ⟨[], .refl _, [], .nil, rfl⟩ hvalue
  obtain ⟨text, hreads, hspells⟩ := hinner
  rw [List.reverse_reverse] at hspells
  refine ⟨text, ?_, by simpa using hspells, rfl⟩
  exact (Cursor.reads_next_of_peek hopen).trans
    (hreads.trans (Cursor.reads_next_of_peek hclose))

-- ---------------------------------------------------------------------------
-- What is spelled is read
-- ---------------------------------------------------------------------------

/-- Digits are read up to their number, whatever stands behind the last of them. -/
theorem unicodeEscape_recovers {start : Cursor} {letter : Char} {count : Nat} {digits : List Char}
    (h : WritesChar count digits ch) :
    (unicodeEscape start letter count).Recovers id ch (letter :: digits) rest := by
  obtain ⟨rfl, n, hhex, hnumber⟩ := h
  obtain ⟨hdigits, rfl⟩ := writesHex_iff.1 hhex
  refine .skip_one_bind (.place_bind fun place hplace => ?_)
  have htaken : (place.rest.take digits.length).takeWhile (fun ch => (hexDigit? ch).isSome) =
      digits := by
    rw [hplace, List.take_left, List.takeWhile_eq_self_iff.2 hdigits]
  simp only [htaken, if_true]
  rw [← List.append_nil digits]
  refine .skip_bind digits (by simp) (.pure ?_)
  simpa using numbers_iff.1 hnumber

theorem quotedChar_recovers (start : Cursor) {piece : List Char} (h : SpellsChar piece ch) :
    (quotedChar start).Recovers id ch piece rest := by
  refine .peek_bind ?_
  cases h with
  | backslash => exact fun offset => ⟨'\\', offset + 1 + 1, rfl, rfl⟩
  | quote => exact fun offset => ⟨'"', offset + 1 + 1, rfl, rfl⟩
  | short hdigits =>
    exact .place_bind fun _ _ => .skip_one_bind (.peek_bind (unicodeEscape_recovers hdigits))
  | long hdigits =>
    exact .place_bind fun _ _ => .skip_one_bind (.peek_bind (unicodeEscape_recovers hdigits))
  | plain hquote hslash hline =>
    rw [List.singleton_append, List.head?_cons]
    split
    · next hnone => simp at hnone
    · next heq => exact absurd (Option.some.inj heq) hline
    · next heq => exact absurd (Option.some.inj heq) hslash
    · next heq =>
      obtain rfl := Option.some.inj heq
      exact .skip_one_bind (.pure rfl)

theorem stringLiteral_recovers {s : StringLiteral} (h : Spells text s.value.toList) :
    stringLiteral.Recovers (·.respan .forget) s ('"' :: (text ++ ['"'])) rest := by
  refine .place_bind fun start _ => .token_bind ?_
  refine .bind (g := List.map id) (a := s.value.toList) ?_ fun value hvalue => ?_
  · apply Recovers.gather (M := fun _ chs text => Spells text chs)
    · rintro seen text ⟨pieces, hpieces, rfl⟩
      cases hpieces
      exact ⟨rfl, fun _ => rfl⟩
    · rintro seen ch chs text ⟨pieces, hpieces, rfl⟩
      obtain ⟨piece, tail, hpiece, htail, rfl⟩ := List.forall₂_cons_right_iff.1 hpieces
      obtain ⟨first, behind, rfl, hfirst⟩ := hpiece.exists_head
      refine ⟨first :: behind, tail.flatten, rfl, List.cons_ne_nil _ _, fun _ => ?_,
        quotedChar_recovers start hpiece, fun _ _ => ⟨tail, htail, rfl⟩⟩
      simpa [Cursor.peek] using hfirst
    · exact h
  · obtain rfl : value = s.value.toList := by simpa using hvalue
    refine .token_bind (.spanFrom_bind fun _ => .pure ?_)
    simp [StringLiteral.respan]

-- ---------------------------------------------------------------------------
-- Reading a quoted text
-- ---------------------------------------------------------------------------

/-- `s` is the quoted text that is spelled by `text` at the quote behind `before`, and `d` stands right
behind its last quote, in front of `rest`. -/
structure IsQuoted (before after text rest : List Char) (s : StringLiteral) (d : Cursor) : Prop where
  after_eq : after = text ++ '"' :: rest
  spells : Spells text s.value.toList
  span_eq : s.span = ⟨byteLength before, byteLength (before ++ '"' :: (text ++ ['"']))⟩
  slice : s.span.slice? (before ++ '"' :: after) = some ('"' :: (text ++ ['"']))
  end_eq : d = ⟨rest, s.span.stop⟩

theorem isQuoted_of_stringLiteral {before after : List Char} {s : StringLiteral}
    (h : stringLiteral ⟨'"' :: after, byteLength before⟩ = .ok (s, d)) :
    ∃ text, IsQuoted before after text d.rest s d := by
  obtain ⟨text, hreads, hspells, hspan⟩ := stringLiteral_spells h
  have hin : Cursor.In (before ++ '"' :: after) ⟨'"' :: after, byteLength before⟩ := ⟨before, rfl, rfl⟩
  have hstop : d.offset = byteLength (before ++ '"' :: (text ++ ['"'])) := by
    rw [byteLength_append]
    exact hreads.offset
  exact ⟨text, by simpa using hreads.rest, hspells, by rw [hspan, ← hstop]; rfl,
    by rw [hspan]; exact hreads.slice? hin, by rw [hspan]; rfl⟩

/-- The pieces and what stands behind the last quote leave no choice of what is read. -/
theorem IsQuoted.eq_of_value {before after text text' rest : List Char} {s s' : StringLiteral}
    {d' : Cursor} (h : IsQuoted before after text rest s d)
    (h' : IsQuoted before after text' rest s' d') (hvalue : s.value = s'.value) : s = s' ∧ d = d' := by
  have htext : text = text' := List.append_cancel_right (h.after_eq.symm.trans h'.after_eq)
  have hspan : s.span = s'.span := by rw [h.span_eq, h'.span_eq, htext]
  refine ⟨?_, by rw [h.end_eq, h'.end_eq, hspan]⟩
  cases s
  cases s'
  exact congrArg₂ _ hvalue hspan

/-- At a quote, a quoted text is read exactly where pieces of the grammar and a quote follow. It is then
what the pieces spell, its span cuts out what stands from the one quote to the other, and reading goes on
behind it. -/
theorem stringLiteral_ok_iff (before after : List Char) :
    ((∃ s d, stringLiteral ⟨'"' :: after, byteLength before⟩ = .ok (s, d)) ↔
        ∃ text value rest, Spells text value ∧ after = text ++ '"' :: rest) ∧
      ∀ s d, stringLiteral ⟨'"' :: after, byteLength before⟩ = .ok (s, d) ↔
        ∃ text rest, IsQuoted before after text rest s d := by
  have hread : ∀ text value rest, Spells text value → after = text ++ '"' :: rest →
      ∃ s d, stringLiteral ⟨'"' :: after, byteLength before⟩ = .ok (s, d) ∧
        s.value.toList = value ∧ d.rest = rest := by
    rintro text value rest hspells rfl
    have hspells : Spells text (String.ofList value).toList := by simpa using hspells
    obtain ⟨s, offset, hrun, hs⟩ := stringLiteral_recovers (s := ⟨_, ⟨0, 0⟩⟩) hspells (byteLength before)
    have hvalue : s.value = String.ofList value := congrArg StringLiteral.value hs
    exact ⟨s, _, by simpa using hrun, by simp [hvalue], rfl⟩
  refine ⟨⟨fun ⟨s, d, hrun⟩ => ?_, fun ⟨text, value, rest, hspells, hafter⟩ => ?_⟩,
    fun s d => ⟨fun hrun => ?_, fun ⟨text, rest, hquoted⟩ => ?_⟩⟩
  · obtain ⟨text, hquoted⟩ := isQuoted_of_stringLiteral hrun
    exact ⟨text, _, _, hquoted.spells, hquoted.after_eq⟩
  · obtain ⟨s, d, hrun, -⟩ := hread text value rest hspells hafter
    exact ⟨s, d, hrun⟩
  · obtain ⟨text, hquoted⟩ := isQuoted_of_stringLiteral hrun
    exact ⟨text, _, hquoted⟩
  · obtain ⟨s', d', hrun, hvalue, hrest⟩ := hread text _ rest hquoted.spells hquoted.after_eq
    obtain ⟨text', hquoted'⟩ := isQuoted_of_stringLiteral hrun
    rw [hrest] at hquoted'
    obtain ⟨rfl, rfl⟩ := hquoted'.eq_of_value hquoted (String.toList_injective hvalue)
    exact hrun

end Parser

end MessageLint
