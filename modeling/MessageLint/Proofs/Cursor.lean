-- SUMMARY: How cursors move: the text between two of them, and where blank lines end.
import MessageLint.Grammar.Cursor
import MessageLint.Proofs.Basic

/-!
# Motion of cursors

`c.Reads text d` says that `d` stands behind `text`, read from `c`. It is all that a proof about
offsets needs to know of a movement. `c.In source` ties a cursor to a source; it is kept by reading,
and it makes the offsets of two cursors cut the text between them out of the source.
-/

namespace MessageLint

-- ---------------------------------------------------------------------------
-- Splitting texts by bytes
-- ---------------------------------------------------------------------------

private theorem splitBytesOnto_append (before text after : List Char) :
    splitBytesOnto before (byteLength text) (text ++ after) =
      some (text.reverse ++ before, after) := by
  induction text generalizing before with
  | nil => simp [splitBytesOnto]
  | cons c cs ih =>
    have hpos : 0 < c.utf8Size := c.utf8Size_pos
    obtain ⟨n, hn⟩ : ∃ n, byteLength (c :: cs) = n + 1 :=
      ⟨c.utf8Size + byteLength cs - 1, by simp; omega⟩
    have hle : c.utf8Size ≤ n + 1 := by simp at hn; omega
    have hrest : n + 1 - c.utf8Size = byteLength cs := by simp at hn; omega
    rw [hn, List.cons_append, splitBytesOnto, if_pos hle, hrest, ih]
    simp

theorem splitBytes?_append (text after : List Char) :
    splitBytes? (byteLength text) (text ++ after) = some (text, after) := by
  simp [splitBytes?, splitBytesOnto_append]

/-- A span whose ends are the byte lengths of two splits cuts out what lies between them. -/
theorem Span.slice?_append (before text after : List Char) :
    Span.slice? ⟨byteLength before, byteLength before + byteLength text⟩ (before ++ text ++ after) =
      some text := by
  simp [Span.slice?, Span.length, splitBytes?_append]

theorem byteLength_pos {text : List Char} (h : text ≠ []) : 0 < byteLength text := by
  obtain ⟨ch, rest, rfl⟩ := List.exists_cons_of_ne_nil h
  have := ch.utf8Size_pos
  simp only [byteLength_cons]
  omega

/-- A text is as long in bytes as its string. -/
theorem byteLength_toList (s : String) : byteLength s.toList = s.utf8ByteSize := by
  have key : ∀ cs : List Char, byteLength cs = (String.ofList cs).utf8ByteSize := by
    intro cs
    induction cs with
    | nil => simp
    | cons c cs ih => simp [ih, String.ofList_cons]
  simpa using key s.toList

namespace Cursor

variable {c d e : Cursor} {ch : Char} {text more source : List Char} {p : Char → Bool}

-- ---------------------------------------------------------------------------
-- Reading
-- ---------------------------------------------------------------------------

/-- `d` stands right behind `text`, which starts at `c`. -/
structure Reads (c : Cursor) (text : List Char) (d : Cursor) : Prop where
  rest : c.rest = text ++ d.rest
  offset : d.offset = c.offset + byteLength text

theorem Reads.refl (c : Cursor) : c.Reads [] c := ⟨rfl, rfl⟩

theorem Reads.trans (h : c.Reads text d) (k : d.Reads more e) : c.Reads (text ++ more) e :=
  ⟨by rw [h.rest, k.rest, List.append_assoc], by rw [k.offset, h.offset, byteLength_append]; omega⟩

theorem Reads.le (h : c.Reads text d) : c.offset ≤ d.offset := by
  rw [h.offset]; omega

theorem Reads.rest_eq_nil (h : c.Reads text d) (hc : c.rest = []) : d.rest = [] :=
  (List.append_eq_nil_iff.1 (h.rest.symm.trans hc)).2

theorem Reads.length_le (h : c.Reads text d) : d.rest.length ≤ c.rest.length := by
  rw [h.rest, List.length_append]; omega

theorem Reads.length_lt_of_ne_nil (h : c.Reads text d) (hne : text ≠ []) :
    d.rest.length < c.rest.length := by
  have := List.length_pos_iff.2 hne
  rw [h.rest, List.length_append]
  omega

theorem Reads.length_lt (h : c.Reads text d) (hlt : c.offset < d.offset) :
    d.rest.length < c.rest.length := by
  refine h.length_lt_of_ne_nil ?_
  rintro rfl
  rw [h.offset] at hlt
  exact Nat.lt_irrefl _ hlt

theorem peek_eq_some : c.peek = some ch ↔ ∃ r, c.rest = ch :: r := by
  cases hr : c.rest <;> simp [peek, hr]

theorem reads_next_of_peek (h : c.peek = some ch) : c.Reads [ch] c.next := by
  obtain ⟨r, hr⟩ := peek_eq_some.1 h
  constructor <;> simp [next, hr]

theorem reads_next (c : Cursor) : ∃ text, c.Reads text c.next := by
  cases hp : c.peek with
  | none => exact ⟨[], by simpa [next, show c.rest = [] by simpa [peek] using hp] using Reads.refl c⟩
  | some ch => exact ⟨[ch], reads_next_of_peek hp⟩

@[simp] theorem advance_zero (c : Cursor) : c.advance 0 = c := rfl

@[simp] theorem advance_succ (n : Nat) (c : Cursor) : c.advance (n + 1) = c.next.advance n := rfl

theorem reads_advance (n : Nat) (c : Cursor) : ∃ text, c.Reads text (c.advance n) := by
  induction n generalizing c with
  | zero => exact ⟨[], .refl c⟩
  | succ n ih =>
    obtain ⟨first, hfirst⟩ := reads_next c
    obtain ⟨rest, hrest⟩ := ih c.next
    exact ⟨first ++ rest, hfirst.trans hrest⟩

/-- Going forward over as many characters as `text` has reads `text`. -/
theorem advance_append (text rest : List Char) (offset : Nat) :
    advance text.length ⟨text ++ rest, offset⟩ = ⟨rest, offset + byteLength text⟩ := by
  induction text generalizing offset with
  | nil => rfl
  | cons ch text ih =>
    change advance text.length ⟨text ++ rest, offset + ch.utf8Size⟩ = _
    rw [ih, byteLength_cons, Nat.add_assoc]

theorem reads_advance_of_prefix (h : text <+: c.rest) : c.Reads text (c.advance text.length) := by
  obtain ⟨rest, hrest⟩ := h
  have : c = ⟨text ++ rest, c.offset⟩ := by rw [hrest]
  rw [this, advance_append]
  exact ⟨rfl, rfl⟩

theorem reads_skipWhile (p : Char → Bool) (c : Cursor) :
    c.Reads (c.rest.takeWhile p) (c.skipWhile p) :=
  ⟨(List.takeWhile_append_dropWhile ..).symm, rfl⟩

theorem reads_skipSpaces (c : Cursor) : c.Reads (c.rest.takeWhile isSpace) c.skipSpaces :=
  c.reads_skipWhile isSpace

theorem reads_skipBlank (c : Cursor) : c.Reads (c.rest.takeWhile isBlank) c.skipBlank :=
  c.reads_skipWhile isBlank

theorem peek_skipWhile (h : (c.skipWhile p).peek = some ch) : p ch = false := by
  have := List.head?_dropWhile_not p c.rest
  rw [show (c.rest.dropWhile p).head? = some ch from h] at this
  simpa using this

-- ---------------------------------------------------------------------------
-- Places in a source
-- ---------------------------------------------------------------------------

/-- The cursor stands in `source`, at the offset of the bytes in front of it. -/
def In (source : List Char) (c : Cursor) : Prop :=
  ∃ before, source = before ++ c.rest ∧ c.offset = byteLength before

theorem in_ofString (source : String) : (ofString source).In source.toList := ⟨[], rfl, rfl⟩

theorem Reads.in (h : c.Reads text d) (hc : c.In source) : d.In source := by
  obtain ⟨before, hs, ho⟩ := hc
  exact ⟨before ++ text, by rw [hs, h.rest, List.append_assoc],
    by rw [h.offset, ho, byteLength_append]⟩

theorem In.offset_le (h : c.In source) : c.offset ≤ byteLength source := by
  obtain ⟨before, hs, ho⟩ := h
  rw [hs, ho, byteLength_append]; omega

/-- The span between two cursors cuts out what was read between them. -/
theorem Reads.slice? (h : c.Reads text d) (hc : c.In source) :
    (c.spanTo d).slice? source = some text := by
  obtain ⟨before, hs, ho⟩ := hc
  rw [hs, h.rest, ← List.append_assoc, spanTo, h.offset, ho]
  exact Span.slice?_append before text d.rest

-- ---------------------------------------------------------------------------
-- Blank lines
-- ---------------------------------------------------------------------------

/-- Where skipping blank lines ends: at the end of the source, or at the start of a line that holds
something. -/
structure EndsBlankLines (c : Cursor) (text : List Char) (lines : Nat) (d : Cursor) : Prop where
  reads : c.Reads text d
  blank : ∀ ch ∈ text, isBlank ch
  count : lines = text.count '\n'
  stop : d.rest = [] ∨
    (text = [] ∨ text.getLast? = some '\n') ∧ ∃ ch, d.skipSpaces.peek = some ch ∧ ch ≠ '\n'

theorem eq_space_of_isSpace (h : isSpace ch = true) : ch = ' ' := by simpa [isSpace] using h

/-- The loop has read `spaces` of the line that starts at `lineStart`. -/
private theorem skipBlankLinesFrom_ends (lineStart : Cursor) (lines : Nat) (spaces : List Char)
    (r : List Char) (offset : Nat) (hs : ∀ ch ∈ spaces, ch = ' ')
    (h : lineStart.Reads spaces ⟨r, offset⟩) :
    ∃ text more, (skipBlankLinesFrom lineStart lines r offset).1 = lines + more ∧
      EndsBlankLines lineStart text more (skipBlankLinesFrom lineStart lines r offset).2 := by
  fun_induction skipBlankLinesFrom lineStart lines r offset generalizing spaces with
  | case1 lineStart lines offset =>
    refine ⟨spaces, 0, rfl, h, fun ch hch => ?_, (count_newline_of_spaces hs).symm, .inl rfl⟩
    rw [hs ch hch]; rfl
  | case2 lineStart lines r offset ih =>
    refine ih (spaces ++ [' ']) (fun ch hch => ?_) (h.trans (reads_next_of_peek rfl))
    rcases List.mem_append.1 hch with hch | hch
    · exact hs ch hch
    · exact List.mem_singleton.1 hch
  | case3 lineStart lines r offset ih =>
    obtain ⟨text, more, hlines, hends⟩ := ih [] (by simp) (.refl _)
    have hline : lineStart.Reads (spaces ++ ['\n']) ⟨r, offset + 1⟩ :=
      h.trans (reads_next_of_peek rfl)
    refine ⟨spaces ++ ['\n'] ++ text, more + 1, by omega, hline.trans hends.reads, ?_, ?_, ?_⟩
    · intro ch hch
      simp only [List.append_assoc, List.mem_append, List.mem_singleton] at hch
      rcases hch with hch | rfl | hch
      · rw [hs ch hch]; rfl
      · rfl
      · exact hends.blank ch hch
    · simp [count_newline_of_spaces hs, hends.count]
    · refine hends.stop.imp_right fun ⟨htext, hch⟩ => ⟨.inr ?_, hch⟩
      rcases htext with rfl | htext
      · simp
      · rw [List.getLast?_append, htext]; rfl
  | case4 lineStart lines r offset hnil hspace hnewline =>
    refine ⟨[], 0, rfl, .refl _, by simp, rfl, .inr ⟨.inl rfl, ?_⟩⟩
    obtain ⟨ch, r, rfl⟩ := List.exists_cons_of_ne_nil hnil
    have hch : isSpace ch = false := by simpa [isSpace] using fun heq => hspace r (by rw [heq])
    have hspaces : ∀ ch ∈ spaces, isSpace ch := fun ch hch => by rw [hs ch hch]; rfl
    refine ⟨ch, ?_, fun heq => hnewline r (by rw [heq])⟩
    simp [skipSpaces, skipWhile, peek, h.rest, List.dropWhile_append_of_pos hspaces, hch]

theorem skipBlankLines_ends (c : Cursor) :
    ∃ text, EndsBlankLines c text c.skipBlankLines.1 c.skipBlankLines.2 := by
  obtain ⟨text, more, hlines, hends⟩ :=
    skipBlankLinesFrom_ends c 0 [] c.rest c.offset (by simp) (.refl c)
  refine ⟨text, ?_⟩
  rw [skipBlankLines, hlines, Nat.zero_add]
  exact hends

/-- At a line end there is at least this one to skip. -/
theorem EndsBlankLines.ne_nil {lines : Nat} (h : c.EndsBlankLines text lines d)
    (hpeek : c.peek = some '\n') : text ≠ [] := by
  rintro rfl
  obtain ⟨r, hr⟩ := peek_eq_some.1 hpeek
  have hrest : d.rest = '\n' :: r := by rw [← hr, h.reads.rest, List.nil_append]
  rcases h.stop with hend | ⟨-, other, hother, hne⟩
  · simp [hrest] at hend
  · refine hne (Option.some.inj (hother.symm.trans ?_))
    simp [skipSpaces, skipWhile, peek, hrest, isSpace]

/-- What the loop over blank lines stops at, from the cases that it does not go on in. -/
theorem exists_head_not_blank {r : List Char} (hnil : r ≠ []) (hspace : ∀ r', r ≠ ' ' :: r')
    (hnewline : ∀ r', r ≠ '\n' :: r') : ∃ ch r', r = ch :: r' ∧ isBlank ch = false := by
  obtain ⟨ch, r, rfl⟩ := List.exists_cons_of_ne_nil hnil
  refine ⟨ch, r, rfl, ?_⟩
  simp only [isBlank, Bool.or_eq_false_iff, beq_eq_false_iff_ne]
  exact ⟨fun heq => hspace r (by rw [heq]), fun heq => hnewline r (by rw [heq])⟩

theorem skipBlankLinesFrom_cons (lineStart : Cursor) (lines : Nat) (r : List Char) (offset : Nat)
    (hch : isBlank ch = false) :
    skipBlankLinesFrom lineStart lines (ch :: r) offset = (lines, lineStart) := by
  simp only [isBlank, Bool.or_eq_false_iff, beq_eq_false_iff_ne] at hch
  rw [skipBlankLinesFrom]
  · simp
  · rintro r heq
    exact hch.1 (List.cons.inj heq).1
  · rintro r heq
    exact hch.2 (List.cons.inj heq).1

/-- A line that holds something is not skipped, however far it is indented. -/
theorem skipBlankLinesFrom_spaces (lineStart : Cursor) (lines : Nat) {spaces r : List Char}
    (offset : Nat) (hs : ∀ ch ∈ spaces, ch = ' ') (hch : isBlank ch = false) :
    skipBlankLinesFrom lineStart lines (spaces ++ ch :: r) offset = (lines, lineStart) := by
  induction spaces generalizing offset with
  | nil => exact skipBlankLinesFrom_cons lineStart lines r offset hch
  | cons space spaces ih =>
    obtain rfl : space = ' ' := hs space List.mem_cons_self
    rw [List.cons_append, skipBlankLinesFrom]
    exact ih _ fun ch hch => hs ch (List.mem_cons_of_mem _ hch)

theorem skipBlankLines_of_peek (hpeek : c.peek = some ch) (hch : isBlank ch = false) :
    c.skipBlankLines = (0, c) := by
  obtain ⟨r, hr⟩ := peek_eq_some.1 hpeek
  rw [skipBlankLines, hr]
  exact skipBlankLinesFrom_cons c 0 r c.offset hch

end Cursor

end MessageLint
