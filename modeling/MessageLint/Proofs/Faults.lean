-- SUMMARY: Where faults point: at stretches of the source, or at the first byte of a character.
import MessageLint.Proofs.LineStops
import MessageLint.Proofs.Safety.Expression

/-!
# Places of faults

A fault is reported in one of two ways: at the stretch between two places that the parser has been at,
or at the character it stands before, which is counted as one byte (`Span.Points`). A run is aimed
(`Parser.Aimed`) if its fault is reported so, and aimed runs compose like safe ones. The stretch always
ends between characters. The one byte does so only if the character has no further bytes, and this is
the only way in which the span of a fault can end inside a character (`Resource.parse_error_span`).

A missing line end is told apart from the other faults: it is missed behind an arrow (`BehindArrow`), as
the line is read already where an entry or a variant stops (`Resource.parse_endsLines`).
-/

namespace MessageLint

variable {source : String} {lo lo' : Nat} {c d m : Cursor} {ch : Char} {s : Span}

-- ---------------------------------------------------------------------------
-- Cutting at boundaries
-- ---------------------------------------------------------------------------

private theorem splitBytesOnto_some {before cs front after : List Char} {n : Nat}
    (h : splitBytesOnto before n cs = some (front, after)) :
    ∃ text, front = text.reverse ++ before ∧ cs = text ++ after ∧ n = byteLength text := by
  fun_induction splitBytesOnto before n cs with
  | case1 before cs =>
    obtain ⟨rfl, rfl⟩ := by simpa using h
    exact ⟨[], rfl, rfl, rfl⟩
  | case2 => simp at h
  | case3 before n c cs hle ih =>
    obtain ⟨text, rfl, rfl, hn⟩ := ih h
    exact ⟨c :: text, by simp, rfl, by rw [byteLength_cons]; omega⟩
  | case4 => simp at h

theorem splitBytes?_some {cs text after : List Char} {n : Nat}
    (h : splitBytes? n cs = some (text, after)) : cs = text ++ after ∧ n = byteLength text := by
  obtain ⟨⟨front, rest⟩, hsplit, heq⟩ := Option.map_eq_some_iff.1 h
  obtain ⟨rfl, rfl⟩ := Prod.mk.inj heq
  obtain ⟨text, rfl, rfl, hn⟩ := splitBytesOnto_some hsplit
  exact ⟨by simp, by simpa using hn⟩

/-- A span whose ends are in order cuts something out of a source if both are boundaries of it. -/
theorem Span.slice?_isSome_iff (hle : s.start ≤ s.stop) :
    (s.slice? source.toList).isSome ↔
      String.Pos.Raw.IsValid source ⟨s.start⟩ ∧ String.Pos.Raw.IsValid source ⟨s.stop⟩ := by
  constructor
  · intro h
    obtain ⟨text, hslice⟩ := Option.isSome_iff_exists.1 h
    simp only [slice?, Option.bind_eq_bind, Option.bind_eq_some_iff, Option.pure_def,
      Prod.exists] at hslice
    obtain ⟨before, after, hbefore, text', after', htext, -⟩ := hslice
    obtain ⟨hsource, hstart⟩ := splitBytes?_some hbefore
    obtain ⟨rfl, hlength⟩ := splitBytes?_some htext
    have hc : Cursor.In source.toList ⟨text' ++ after', s.start⟩ := ⟨before, hsource, hstart⟩
    have hreads : Cursor.Reads ⟨text' ++ after', s.start⟩ text' ⟨after', s.stop⟩ :=
      ⟨rfl, by simp only [← hlength, Span.length]; omega⟩
    exact ⟨hc.isValid, (hreads.in hc).isValid⟩
  · rintro ⟨hstart, hstop⟩
    obtain ⟨c, hc, hcstart⟩ := exists_in_of_isValid hstart
    obtain ⟨d, hd, hdstop⟩ := exists_in_of_isValid hstop
    obtain ⟨text, hreads⟩ := hc.reads hd (by omega)
    have hspan : s = c.spanTo d := by rw [Cursor.spanTo, hcstart, hdstop]
    rw [hspan, hreads.slice? hc]
    rfl

-- ---------------------------------------------------------------------------
-- Spans that point to places
-- ---------------------------------------------------------------------------

/-- The span lies between two places of the source, or counts the character at one as a byte. -/
inductive Span.Points (source : String) : Span → Prop
  | between {c d : Cursor} : c.In source.toList → d.At source c.offset → Points source (c.spanTo d)
  | here {c : Cursor} : c.In source.toList → Points source c.here

/-- The span is the first byte of a character that has more. -/
def Span.Halves (source : String) (s : Span) : Prop :=
  s.stop = s.start + 1 ∧
    ∃ c ch, Cursor.In source.toList c ∧ c.offset = s.start ∧ c.peek = some ch ∧ 1 < ch.utf8Size

namespace Span

/-- A character is not left before its last byte. -/
theorem Halves.not_isValid (h : s.Halves source) : ¬String.Pos.Raw.IsValid source ⟨s.stop⟩ := by
  obtain ⟨hstop, c, ch, hc, hstart, hpeek, hwide⟩ := h
  intro hvalid
  obtain ⟨d, hd, hdstop⟩ := exists_in_of_isValid hvalid
  obtain ⟨text, hreads⟩ := hc.reads_cons hd (by omega) hpeek
  have hoffset := hreads.offset
  rw [byteLength_cons] at hoffset
  omega

theorem Points.of_valid (hle : s.start ≤ s.stop) (hstart : String.Pos.Raw.IsValid source ⟨s.start⟩)
    (hstop : String.Pos.Raw.IsValid source ⟨s.stop⟩) : s.Points source := by
  obtain ⟨c, hc, hcstart⟩ := exists_in_of_isValid hstart
  obtain ⟨d, hd, hdstop⟩ := exists_in_of_isValid hstop
  have hspan : s = c.spanTo d := by rw [Cursor.spanTo, hcstart, hdstop]
  rw [hspan]
  exact .between hc ⟨hd, by omega⟩

theorem Points.inside (h : s.Points source) : s.Inside source := by
  cases h with
  | between _ hd => exact hd.spanTo
  | here hc => exact (Cursor.At.refl hc).here

theorem Points.start_isValid (h : s.Points source) :
    String.Pos.Raw.IsValid source ⟨s.start⟩ := by
  cases h with
  | between hc _ => exact hc.isValid
  | here hc => exact hc.isValid

/-- What points to a place ends at a boundary, but for the one byte of a wider character. -/
theorem Points.stop_isValid_iff (h : s.Points source) :
    String.Pos.Raw.IsValid source ⟨s.stop⟩ ↔ ¬s.Halves source := by
  refine ⟨fun hvalid hhalves => hhalves.not_isValid hvalid, fun hhalves => ?_⟩
  cases h with
  | between _ hd => exact hd.isIn.isValid
  | @here c hc =>
    cases hrest : c.rest with
    | nil =>
      have hhere : c.here = ⟨c.offset, c.offset⟩ := by simp [Cursor.here, Cursor.atEnd, hrest]
      rw [hhere]
      exact hc.isValid
    | cons ch r =>
      have hhere : c.here = ⟨c.offset, c.offset + 1⟩ := by simp [Cursor.here, Cursor.atEnd, hrest]
      have hpeek : c.peek = some ch := Cursor.peek_eq_some.2 ⟨r, hrest⟩
      rw [hhere] at hhalves ⊢
      have hnarrow : ¬1 < ch.utf8Size := fun hwide => hhalves ⟨rfl, c, ch, hc, rfl, hpeek, hwide⟩
      have hnext := Cursor.reads_next_of_peek hpeek
      have hoffset : c.next.offset = c.offset + 1 := by
        have := ch.utf8Size_pos
        rw [hnext.offset, byteLength_cons, byteLength_nil]
        omega
      rw [← hoffset]
      exact (hnext.in hc).isValid

end Span

theorem Node.Placed.points {n : Node} (h : n.Placed source) : n.span.Points source :=
  .of_valid h.start_le_stop h.start_isValid h.stop_isValid

-- ---------------------------------------------------------------------------
-- Aimed runs
-- ---------------------------------------------------------------------------

/-- In front of the offset stands an arrow, with nothing but spaces between. -/
def BehindArrow (source : List Char) (offset : Nat) : Prop :=
  ∃ before spaces after, source = before ++ '-' :: '>' :: (spaces ++ after) ∧
    (∀ ch ∈ spaces, ch = ' ') ∧ offset = byteLength (before ++ '-' :: '>' :: spaces)

/-- The fault points to a place, and where it is a missing line end, this is behind an arrow. -/
structure SyntaxError.Aimed (source : String) (e : SyntaxError) : Prop where
  points : e.span.Points source
  behindArrow : e.cause = .expectedToken '\n' → BehindArrow source.toList e.span.start

theorem SyntaxError.Aimed.of_cause {cause : SyntaxCause} (hcause : cause ≠ .expectedToken '\n')
    (h : s.Points source) : SyntaxError.Aimed source ⟨cause, s⟩ :=
  ⟨h, fun heq => absurd heq hcause⟩

/-- A run that succeeds ends in the source, not before `lo`; one that fails has an aimed fault. -/
def Parser.Aimed {α : Type} (source : String) (lo : Nat) :
    Except SyntaxError (α × Cursor) → Prop
  | .ok (_, d) => d.At source lo
  | .error e => e.Aimed source

/-- Wherever the parser is run in the source, its run is aimed. -/
def Parser.Aims {α : Type} (source : String) (p : Parser α) : Prop :=
  ∀ ⦃lo c⦄, c.At source lo → Parser.Aimed source lo (p c)

structure Nested.Aims (source : String) (nested : Nested) : Prop where
  inline : nested.inline.Aims source
  placeable : nested.placeable.Aims source

namespace Parser

variable {α β : Type} {p : Parser α}

theorem Aimed.mono {r : Except SyntaxError (α × Cursor)} (hle : lo' ≤ lo) (h : Aimed source lo r) :
    Aimed source lo' r := by
  cases r with
  | error e => exact h
  | ok r => exact Cursor.At.mono hle h

theorem Aims.of_in (h : ∀ ⦃c⦄, c.In source.toList → Aimed source c.offset (p c)) :
    Aims source p :=
  fun _ _ hc => (h hc.isIn).mono hc.le

theorem Aimed.bind_run {f : α → Parser β} (h : Aimed source lo (p c))
    (hf : ∀ a d, p c = .ok (a, d) → d.At source lo → Aimed source lo (f a d)) :
    Aimed source lo ((p >>= f) c) := by
  change Aimed source lo (Parser.bind p f c)
  unfold Parser.bind
  cases hrun : p c with
  | error e =>
    rw [hrun] at h
    exact h
  | ok r =>
    rw [hrun] at h
    exact hf r.1 r.2 hrun h

theorem Aimed.bind {f : α → Parser β} (h : Aimed source lo (p c))
    (hf : ∀ a d, d.At source lo → Aimed source lo (f a d)) : Aimed source lo ((p >>= f) c) :=
  h.bind_run fun a d _ hd => hf a d hd

/-- The parser remembers where it stands. -/
theorem Aimed.place {f : Cursor → Parser β} (hc : c.At source lo)
    (h : c.At source c.offset → Aimed source c.offset (f c c)) :
    Aimed source lo ((place >>= f) c) :=
  (h (.refl hc.isIn)).mono hc.le

theorem Aimed.gather {more : List α → Cursor → Bool} {step : List α → Parser α} {seen : List α}
    (round : ∀ seen m, m.At source lo → more seen m → Aimed source lo (step seen m))
    (hc : c.At source lo) : Aimed source lo (gather more step seen c) := by
  fun_induction Parser.gather more step seen c with
  | case1 seen c hmore e hstep => simpa [Aimed, hstep] using round seen c hc hmore
  | case2 seen c hmore a m hstep _ ih =>
    exact ih (by simpa [Aimed, hstep] using round seen c hc hmore)
  | case3 seen c hmore a m hstep _ => simpa [Aimed, hstep] using round seen c hc hmore
  | case4 seen c => exact hc

theorem fail_aimed {cause : SyntaxCause} (hcause : cause ≠ .expectedToken '\n') (hc : c.At source lo) :
    Aimed source lo ((fail cause : Parser α) c) :=
  SyntaxError.Aimed.of_cause hcause (.here hc.isIn)

/-- A fault at what was read from `m` on. -/
theorem failAt_aimed {cause : SyntaxCause} (hcause : cause ≠ .expectedToken '\n')
    (hm : m.In source.toList) (hc : c.At source m.offset) :
    Aimed source lo ((failAt (m.spanTo c) cause : Parser α) c) :=
  SyntaxError.Aimed.of_cause hcause (.between hm hc)

/-- A fault at a node that was read. -/
theorem failAt_node_aimed {cause : SyntaxCause} (hcause : cause ≠ .expectedToken '\n') {n : Node}
    (hn : n.Sound source) : Aimed source lo ((failAt n.span cause : Parser α) c) :=
  SyntaxError.Aimed.of_cause hcause hn.placed.points

theorem token_aims {t : Char} (ht : t ≠ '\n') : Aims source (token t) := fun lo c hc => by
  unfold token
  split
  · exact hc.next
  · exact SyntaxError.Aimed.of_cause (by simpa using ht) (.here hc.isIn)

/-- At a line end the check for one does nothing. -/
theorem lineEnd_aimed (hend : c.AtLineEnd) (hc : c.At source lo) : Aimed source lo (lineEnd c) := by
  have hrun : lineEnd c = .ok ((), c.next) := lineEnd_ok.2 ⟨hend, rfl⟩
  rw [hrun]
  exact hc.next

/-- Behind an arrow the check for a line end may fail. -/
theorem lineEnd_aimed_of_arrow (harrow : BehindArrow source.toList c.offset) (hc : c.At source lo) :
    Aimed source lo (lineEnd c) := by
  unfold lineEnd
  split
  · exact hc.next
  · exact ⟨.here hc.isIn, fun _ => harrow⟩

theorem below_aims {size : Nat}
    {q : (c : Cursor) → c.rest.length < size → Except SyntaxError (α × Cursor)}
    (h : ∀ c hlt, c.In source.toList → Aimed source c.offset (q c hlt)) :
    Aims source (below size q) :=
  .of_in fun c hc => by
    unfold below
    split
    · exact h c _ hc
    · exact fail_aimed (by simp) (.refl hc)

-- ---------------------------------------------------------------------------
-- Names, numbers and quoted text
-- ---------------------------------------------------------------------------

theorem identifier_aims : Aims source identifier := fun lo c hc => by
  rw [identifier, place_bind]
  generalize c.peek = first
  split
  · rw [ite_apply]
    split
    · exact hc.skipWhile _
    · exact fail_aimed (by simp) hc
  · exact fail_aimed (by simp) hc

theorem digits_aims : Aims source digits := fun lo c hc => by
  rw [digits, takeWhile_bind, ite_apply]
  split
  · exact fail_aimed (by simp) (hc.skipWhile _)
  · exact hc.skipWhile _

theorem number_aims : Aims source number := fun lo c hc => by
  have hrest : ∀ {sign : String} {start d : Cursor}, d.At source lo →
      Aimed source lo ((do
        let whole ← digits
        if (← peek) = some '.' then
          skip 1
          let fraction ← digits
          return ⟨sign ++ whole ++ "." ++ fraction, ← spanFrom start⟩
        else
          return ⟨sign ++ whole, ← spanFrom start⟩ : Parser NumberLiteral) d) := fun hd => by
    refine (digits_aims hd).bind fun whole m hm => ?_
    rw [peek_bind, ite_apply, skip_bind]
    split
    · exact (digits_aims (hm.advance 1)).bind fun _ _ hd => hd
    · exact hm
  rw [number, place_bind, ite_apply]
  split
  · exact hrest (hc.advance 1)
  · exact hrest hc

/-- The escape began at `m`. -/
theorem unicodeEscape_aimed (letter : Char) (count : Nat) (hm : m.In source.toList)
    (hc : c.At source m.offset) : Aimed source m.offset (unicodeEscape m letter count c) := by
  have hdigits := fun n => (hc.advance 1).advance n
  rw [unicodeEscape, skip_bind, place_bind, skip_bind, ite_apply]
  split
  · exact hdigits _
  · exact failAt_aimed (by simp) hm (hdigits _)

theorem escape_aims : Aims source escape := fun lo c hc => by
  refine .place hc fun hstart => ?_
  have hletter := hstart.advance 1
  rw [skip_bind, peek_bind]
  generalize (c.advance 1).peek = letter
  split
  · exact failAt_aimed (by simp) hstart.isIn hletter
  · exact unicodeEscape_aimed _ _ hstart.isIn hletter
  · exact unicodeEscape_aimed _ _ hstart.isIn hletter
  · rw [skip_bind, ite_apply]
    split
    · exact hletter.advance 1
    · exact failAt_aimed (by simp) hstart.isIn (hletter.advance 1)

/-- The literal began at `m`. -/
theorem quotedChar_aimed (hm : m.In source.toList) (hc : c.At source m.offset) :
    Aimed source m.offset (quotedChar m c) := by
  rw [quotedChar, peek_bind]
  generalize c.peek = first
  split
  · exact failAt_aimed (by simp) hm hc
  · exact failAt_aimed (by simp) hm hc
  · exact escape_aims hc
  · exact hc.advance 1

theorem stringLiteral_aims : Aims source stringLiteral := fun lo c hc => by
  refine .place hc fun hstart => ?_
  refine (token_aims (by decide) hstart).bind fun _ d hd => ?_
  refine (Aimed.gather (fun _ _ hm _ => quotedChar_aimed hstart.isIn hm) hd).bind fun _ m hm => ?_
  exact (token_aims (by decide) hm).bind fun _ _ hd => hd

theorem literal_aims : Aims source literal := fun lo c hc => by
  rw [literal, place_bind, ite_apply, ite_apply]
  split
  · exact (number_aims hc).bind fun _ _ hd => hd
  · split
    · exact (stringLiteral_aims hc).bind fun _ _ hd => hd
    · exact fail_aimed (by simp) hc

-- ---------------------------------------------------------------------------
-- Patterns
-- ---------------------------------------------------------------------------

section Patterns

variable {placeable : Parser Placeable}

theorem piece_aims (hplaceable : Aims source placeable) : Aims source (piece placeable) :=
  fun lo c hc => by
    rw [piece, place_bind]
    generalize c.peek = first
    split
    · rw [skipBlankLines_bind, countSpaces_bind]
      exact hc.skipBlankLines.skipSpaces
    · exact (hplaceable hc).bind fun _ _ hd => hd
    · exact fail_aimed (by simp) hc
    · exact hc.skipWhile _

theorem pattern_aims (hplaceable : Aims source placeable) (block : Bool) :
    Aims source (pattern placeable block) := fun lo c hc => by
  have hpieces : ∀ {opening : List Piece} {d : Cursor}, d.At source lo →
      Aimed source lo (gather (fun _ c => c.continuesPiece) (fun _ => piece placeable) opening d) :=
    fun hd => .gather (fun _ _ hm _ => piece_aims hplaceable hm) hd
  rw [pattern, place_bind]
  refine Aimed.bind ?_ fun _ _ hd => hd
  cases block with
  | true => exact hpieces hc.skipSpaces
  | false => exact hpieces hc

theorem pattern?_aims (hplaceable : Aims source placeable) : Aims source (pattern? placeable) :=
  fun lo c hc => by
    have hvalue := hc.skipSpaces
    simp only [pattern?, place_bind, ite_apply, moveTo_bind]
    split
    · split
      · exact (pattern_aims hplaceable true hvalue.skipBlankLines).bind fun _ _ hd => hd
      · exact hc
    · exact (pattern_aims hplaceable false hvalue).bind fun _ _ hd => hd

theorem requiredPattern_aims (hplaceable : Aims source placeable) :
    Aims source (requiredPattern placeable) := fun lo c hc => by
  refine (pattern?_aims hplaceable hc).bind fun value d hd => ?_
  cases value with
  | some value => exact hd
  | none => exact fail_aimed (by simp) hd

end Patterns

-- ---------------------------------------------------------------------------
-- Arguments and references
-- ---------------------------------------------------------------------------

variable {nested : Nested}

theorem namedArgument_aims (taken : List NamedArgument) {e : Inline}
    (he : (Node.inline e).Sound source) : Aims source (namedArgument taken e) := fun lo c hc => by
  unfold namedArgument
  split
  · next id span =>
    have hid : (Node.identifier id).Sound source := he.child List.mem_cons_self
    rw [ite_apply]
    split
    · exact failAt_node_aimed (by simp) hid
    · rw [skip_bind, skipBlank_bind]
      exact (literal_aims (hc.advance 1).skipBlank).bind fun _ _ hd => hd
  · exact failAt_node_aimed (by simp) he

theorem listedArgument_aims (hnested : nested.Aims source) (hfills : nested.Fills source)
    (seen : List ListedArgument) : Aims source (listedArgument nested seen) := fun lo c hc => by
  have hcomma : ∀ {argument : Argument} {d : Cursor}, d.At source lo →
      Aimed source lo ((do
        skipBlank
        if (← peek) = some ',' then
          skip 1
          skipBlank
          return ⟨argument, true⟩
        else
          return ⟨argument, false⟩ : Parser ListedArgument) d) := fun hd => by
    rw [skipBlank_bind, peek_bind, ite_apply, skip_bind, skipBlank_bind]
    split
    · exact (hd.skipBlank.advance 1).skipBlank
    · exact hd.skipBlank
  refine (hnested.inline hc).bind_run fun e d hrun hd => ?_
  have he : (Node.inline e).Sound source :=
    (hfills.inline hc.isIn hrun).row.sound List.mem_cons_self
  rw [skipBlank_bind, peek_bind, ite_apply]
  split
  · rw [map_bind]
    exact (namedArgument_aims _ he hd.skipBlank).bind fun _ _ hm => hcomma hm
  · rw [ite_apply]
    split
    · exact hcomma hd.skipBlank
    · exact SyntaxError.Aimed.of_cause (by simp) he.placed.points

theorem arguments_aims (hnested : nested.Aims source) (hfills : nested.Fills source) :
    Aims source (arguments nested) := fun lo c hc => by
  refine (token_aims (by decide) hc).bind fun _ d hd => ?_
  rw [skipBlank_bind]
  refine (Aimed.gather (fun seen _ hm _ => listedArgument_aims hnested hfills seen hm)
    hd.skipBlank).bind fun _ m hm => ?_
  exact (token_aims (by decide) hm).bind fun _ _ hd => hd

theorem accessor_aims : Aims source accessor := fun lo c hc => by
  rw [accessor, peek_bind, ite_apply, skip_bind]
  split
  · exact (identifier_aims (hc.advance 1)).bind fun _ _ hd => hd
  · exact hc

theorem variableRef_aims : Aims source variableRef := fun lo c hc => by
  rw [variableRef, place_bind, skip_bind]
  exact (identifier_aims (hc.advance 1)).bind fun _ _ hd => hd

theorem termRef_aims (hnested : nested.Aims source) (hfills : nested.Fills source) :
    Aims source (termRef nested) := fun lo c hc => by
  rw [termRef, place_bind, skip_bind]
  refine (identifier_aims (hc.advance 1)).bind fun _ d hd => ?_
  refine (accessor_aims hd).bind fun _ m hm => ?_
  have hopen : Aimed source lo (skipBlankBefore '(' m) := by
    unfold skipBlankBefore
    split
    · exact hm.skipBlank
    · exact hm
  refine hopen.bind fun called m hm => ?_
  cases called with
  | true =>
    simp only [↓reduceIte, map_bind]
    exact (arguments_aims hnested hfills hm).bind fun _ _ hd => hd
  | false => exact hm

theorem callOrMessageRef_aims (hnested : nested.Aims source) (hfills : nested.Fills source) :
    Aims source (callOrMessageRef nested) := fun lo c hc => by
  rw [callOrMessageRef, place_bind]
  refine (identifier_aims hc).bind_run fun id d hid hd => ?_
  have hname := (identifier_fills hc.isIn hid).row.sound List.mem_cons_self
  rw [place_bind, ite_apply, ite_apply]
  split
  · split
    · rw [skipBlank_bind]
      exact (arguments_aims hnested hfills hd.skipBlank).bind fun _ _ hd => hd
    · exact failAt_node_aimed (by simp) hname
  · exact (accessor_aims hd).bind fun _ _ hd => hd

-- ---------------------------------------------------------------------------
-- Selections and placeables
-- ---------------------------------------------------------------------------

theorem variantKey_aims : Aims source variantKey := fun lo c hc => by
  rw [variantKey, place_bind, ite_apply]
  split
  · exact (number_aims hc).bind fun _ _ hd => hd
  · exact (identifier_aims hc).bind fun _ _ hd => hd

theorem defaultMark_aims (seen : List Variant) : Aims source (defaultMark seen) := fun lo c hc => by
  rw [defaultMark, peek_bind, ite_apply, ite_apply, skip_bind]
  split
  · split
    · exact fail_aimed (by simp) hc
    · exact hc.advance 1
  · exact hc

theorem variant_aims (hnested : nested.Aims source) (seen : List Variant) :
    Aims source (variant nested seen) := fun lo c hc => by
  rw [variant, place_bind]
  refine (defaultMark_aims seen hc).bind fun _ m hm => ?_
  refine (token_aims (by decide) hm).bind fun _ m hm => ?_
  rw [skipBlank_bind]
  refine (variantKey_aims hm.skipBlank).bind fun _ m hm => ?_
  rw [skipBlank_bind]
  refine (token_aims (by decide) hm.skipBlank).bind fun _ m hm => ?_
  exact (requiredPattern_aims hnested.placeable hm).bind fun _ _ hd => hd

theorem variantLine_aims (hnested : nested.Aims source) (hfills : nested.Fills source)
    (seen : List Variant) : Aims source (variantLine nested seen) := fun _ _ hc =>
  (variant_aims hnested seen hc).bind_run fun _ _ hrun hm =>
    (lineEnd_aimed (variant_atLineEnd hfills hc.isIn hrun) hm).bind fun _ _ hd => hd.skipBlank

theorem variants_aims (hnested : nested.Aims source) (hfills : nested.Fills source) :
    Aims source (variants nested) := fun lo c hc => by
  rw [variants, skipBlank_bind]
  refine (Aimed.gather (fun seen _ hm _ => variantLine_aims hnested hfills seen hm)
    hc.skipBlank).bind fun vs d hd => ?_
  rw [ite_apply, ite_apply]
  split
  · exact fail_aimed (by simp) hd
  · split
    · exact hd
    · exact fail_aimed (by simp) hd

theorem selectorFault?_ne {selector : Inline} {cause : SyntaxCause}
    (h : selector.selectorFault? = some cause) : cause ≠ .expectedToken '\n' := by
  rintro rfl
  unfold Inline.selectorFault? at h
  split at h <;> cases h

/-- Behind the arrow of a selection and the spaces after it. -/
theorem behindArrow_skipSpaces (hc : c.In source.toList) (harrow : ['-', '>'] <+: c.rest) :
    BehindArrow source.toList (c.advance 2).skipSpaces.offset := by
  have harrow : c.Reads ['-', '>'] (c.advance 2) := Cursor.reads_advance_of_prefix harrow
  have hspaces := (c.advance 2).reads_skipSpaces
  obtain ⟨before, hsource, hoffset⟩ := hc
  refine ⟨before, (c.advance 2).rest.takeWhile Cursor.isSpace, (c.advance 2).skipSpaces.rest, ?_,
    fun ch hch => Cursor.eq_space_of_isSpace (List.mem_takeWhile_imp hch), ?_⟩
  · rw [hsource, harrow.rest, ← hspaces.rest]
    rfl
  · rw [hspaces.offset, harrow.offset, hoffset, byteLength_append]
    simp
    omega

theorem selection_aimed (hnested : nested.Aims source) (hfills : nested.Fills source)
    {selector : Inline} (start : Cursor) (hselector : (Node.inline selector).Sound source)
    (harrow : ['-', '>'] <+: c.rest) (hc : c.At source lo) :
    Aimed source lo (selection nested start selector c) := by
  unfold selection
  generalize hfault : selector.selectorFault? = fault
  split
  · exact failAt_node_aimed (selectorFault?_ne hfault) hselector
  · rw [skip_bind, skipSpaces_bind]
    refine (lineEnd_aimed_of_arrow (behindArrow_skipSpaces hc.isIn harrow)
      (hc.advance 2).skipSpaces).bind fun _ m hm => ?_
    exact (variants_aims hnested hfills hm).bind fun _ _ hd => hd

theorem expression_aims (hnested : nested.Aims source) (hfills : nested.Fills source) :
    Aims source (expression nested) := fun lo c hc => by
  rw [expression, place_bind]
  refine (hnested.inline hc).bind_run fun e d hrun hd => ?_
  have he : (Node.inline e).Sound source :=
    (hfills.inline hc.isIn hrun).row.sound List.mem_cons_self
  rw [skipBlank_bind, place_bind, ite_apply]
  split
  · next harrow =>
    exact (selection_aimed hnested hfills c he (List.isPrefixOf_iff_prefix.1 harrow)
      hd.skipBlank).bind fun _ _ hm => hm
  · split
    · exact failAt_node_aimed (by simp) he
    · exact hd.skipBlank

theorem placeableWith_aims (hnested : nested.Aims source) (hfills : nested.Fills source) :
    Aims source (placeableWith nested) := fun lo c hc => by
  rw [placeableWith, place_bind]
  refine (token_aims (by decide) hc).bind fun _ d hd => ?_
  rw [skipBlank_bind]
  refine (expression_aims hnested hfills hd.skipBlank).bind fun _ m hm => ?_
  exact (token_aims (by decide) hm).bind fun _ _ hd => hd

theorem inlineWith_aims (hnested : nested.Aims source) (hfills : nested.Fills source) :
    Aims source (inlineWith nested) := fun lo c hc => by
  rw [inlineWith, place_bind, ite_apply]
  split
  · exact (number_aims hc).bind fun _ _ hd => hd
  · generalize c.peek = first
    split
    · exact (placeableWith_aims hnested hfills hc).bind fun _ _ hd => hd
    · exact (stringLiteral_aims hc).bind fun _ _ hd => hd
    · exact variableRef_aims hc
    · exact termRef_aims hnested hfills hc
    · rw [ite_apply]
      split
      · exact callOrMessageRef_aims hnested hfills hc
      · exact fail_aimed (by simp) hc
    · exact fail_aimed (by simp) hc

theorem placeable_aims : Aims source Parser.placeable := by
  have hwithin : ∀ c : Cursor, (∀ d : Cursor, d.rest.length < c.rest.length →
      (d.In source.toList → Aimed source d.offset (inline d)) ∧
        (d.In source.toList → Aimed source d.offset (Parser.placeable d))) →
      (within c.rest.length).Aims source := fun c hshorter =>
    ⟨below_aims fun d hlt hd => (hshorter d hlt).1 hd,
      below_aims fun d hlt hd => (hshorter d hlt).2 hd⟩
  refine .of_in fun c => (nested_induction
    (P := fun c r => c.In source.toList → Aimed source c.offset r)
    (Q := fun c r => c.In source.toList → Aimed source c.offset r)
    (fun c hshorter hc => ?_) (fun c hshorter hc => ?_) c).2
  · exact inlineWith_aims (hwithin c hshorter) (within_fills _) (.refl hc)
  · exact placeableWith_aims (hwithin c hshorter) (within_fills _) (.refl hc)

-- ---------------------------------------------------------------------------
-- Entries
-- ---------------------------------------------------------------------------

theorem commentLine_aims (level : CommentLevel) : Aims source (commentLine level) :=
  fun lo c hc => by
    have hmarkers := hc.advance level.markers
    rw [commentLine, skip_bind, peek_bind]
    generalize (c.advance level.markers).peek = first
    split
    · exact hmarkers
    · exact hmarkers
    · exact (hmarkers.advance 1).skipWhile _
    · exact fail_aimed (by simp) hmarkers

theorem comment_aims : Aims source comment := fun lo c hc => by
  rw [comment, place_bind]
  refine (commentLine_aims _ hc).bind fun _ d hd => ?_
  exact (Aimed.gather (fun _ _ hm _ => commentLine_aims _ (hm.advance 1)) hd).bind fun _ _ hm => hm

theorem equalsSign_aims : Aims source equalsSign := fun lo c hc => by
  rw [equalsSign, skipSpaces_bind]
  exact token_aims (by decide) hc.skipSpaces

theorem attributes_aims : Aims source attributes := fun lo c hc => by
  refine .gather (fun _ m hm _ => ?_) hc
  rw [attributeLine, skipBlank_bind, place_bind, skip_bind]
  refine (identifier_aims (hm.skipBlank.advance 1)).bind fun _ m hm => ?_
  refine (equalsSign_aims hm).bind fun _ m hm => ?_
  exact (requiredPattern_aims placeable_aims hm).bind fun _ _ hd => hd

theorem message_aims : Aims source message := fun lo c hc => by
  refine .place hc fun hstart => ?_
  refine (identifier_aims hstart).bind fun _ m hm => ?_
  refine (equalsSign_aims hm).bind fun _ m hm => ?_
  refine (pattern?_aims placeable_aims hm).bind fun _ m hm => ?_
  refine (attributes_aims hm).bind fun _ m hm => ?_
  rw [spanFrom_bind, ite_apply]
  split
  · exact failAt_aimed (by simp) hstart.isIn hm
  · exact hm

theorem term_aims : Aims source term := fun lo c hc => by
  refine .place hc fun hstart => ?_
  rw [skip_bind]
  refine (identifier_aims (hstart.advance 1)).bind fun _ m hm => ?_
  refine (equalsSign_aims hm).bind fun _ m hm => ?_
  refine (pattern?_aims placeable_aims hm).bind fun value m hm => ?_
  cases value with
  | none => exact failAt_aimed (by simp) hstart.isIn hm
  | some value => exact (attributes_aims hm).bind fun _ _ hd => hd

theorem entry_aims : Aims source entry := fun lo c hc => by
  rw [entry, peek_bind]
  generalize c.peek = first
  split
  · exact comment_aims hc
  · exact term_aims hc
  · rw [ite_apply]
    split
    · exact message_aims hc
    · exact fail_aimed (by simp) hc
  · exact fail_aimed (by simp) hc

theorem blocks_aims : Aims source blocks := fun lo c hc => by
  rw [blocks, skipBlankLines_bind]
  refine .gather (fun _ m hm _ => ?_) hc.skipBlankLines
  refine (entry_aims hm).bind_run fun _ d hrun hd => ?_
  exact (lineEnd_aimed (entry_atLineEnd hm.isIn hrun) hd).bind fun _ _ hd => hd.skipBlankLines

end Parser

-- ---------------------------------------------------------------------------
-- Resources
-- ---------------------------------------------------------------------------

namespace Resource

theorem parse_error_aimed {e : SyntaxError} (h : parse source = .error e) : e.Aimed source := by
  have hrun := Parser.blocks_aims (.refl (Cursor.in_ofString source))
  unfold parse at h
  split at h
  · simp at h
  · next e' hblocks =>
    obtain rfl : e' = e := by simpa using h
    rw [hblocks] at hrun
    exact hrun

/-- The span of a fault lies in the source and starts between characters. It ends between characters
too, and so shows a part of the source, unless it is the first byte of a character that has more. -/
theorem parse_error_span {e : SyntaxError} (h : parse source = .error e) :
    e.span.start ≤ e.span.stop ∧ e.span.stop ≤ source.utf8ByteSize ∧
      String.Pos.Raw.IsValid source ⟨e.span.start⟩ ∧
      (String.Pos.Raw.IsValid source ⟨e.span.stop⟩ ↔ ¬e.span.Halves source) ∧
      ((e.span.slice? source.toList).isSome ↔ ¬e.span.Halves source) := by
  have hpoints := (parse_error_aimed h).points
  have hinside := hpoints.inside
  have hstop := hpoints.stop_isValid_iff
  refine ⟨hinside.start_le_stop, hinside.stop_le_size, hpoints.start_isValid, hstop, ?_⟩
  rw [Span.slice?_isSome_iff hinside.start_le_stop, hstop]
  exact and_iff_right hpoints.start_isValid

/-- A quoted text that is not closed is shown from its quote on, whatever characters it holds. -/
theorem parse_error_span_quoted :
    ∃ e : SyntaxError, parse "a = \x7b \"é" = .error e ∧
      (e.span.slice? "a = \x7b \"é".toList).isSome := by
  let e : SyntaxError := ⟨.unterminatedStringLiteral, ⟨6, 9⟩⟩
  have hparse : parse "a = \x7b \"é" = .error e := by cbv
  have hwhole : ¬e.span.Halves "a = \x7b \"é" := fun h => absurd h.1 (by decide)
  exact ⟨e, hparse, (parse_error_span hparse).2.2.2.2.2 hwhole⟩

/-- A letter of two bytes where an entry should start: the fault ends behind its first byte. -/
theorem parse_error_halves :
    ∃ e : SyntaxError, parse "é" = .error e ∧ ¬String.Pos.Raw.IsValid "é" ⟨e.span.stop⟩ ∧
      e.span.slice? "é".toList = none := by
  let e : SyntaxError := ⟨.expectedEntry, ⟨0, 1⟩⟩
  have hparse : parse "é" = .error e := by cbv
  have hhalves : e.span.Halves "é" :=
    ⟨rfl, .ofString "é", 'é', Cursor.in_ofString "é", rfl, by decide, by decide⟩
  exact ⟨e, hparse, hhalves.not_isValid, by decide⟩

end Resource

-- ---------------------------------------------------------------------------
-- Line ends
-- ---------------------------------------------------------------------------

/-- The parsers of the grammar, with or without the guard that a nested one reads less. -/
inductive Nested.OfGrammar : Nested → Prop
  | free : OfGrammar .free
  | within (size : Nat) : OfGrammar (Parser.within size)

theorem Nested.OfGrammar.fills {nested : Nested} (h : nested.OfGrammar) : nested.Fills source := by
  cases h with
  | free => exact free_fills
  | within size => exact Parser.within_fills size

/-- What the checks for a line end do in a source. -/
structure Resource.EndsLines (source : String) : Prop where
  /-- Behind an entry the line is read, or the whole source. -/
  entry {c d : Cursor} {e : Entry} :
    c.In source.toList → Parser.entry c = .ok (e, d) → d.rest = [] ∨ d.peek = some '\n'
  /-- So it is behind a variant. -/
  variant {nested : Nested} {seen : List Variant} {c d : Cursor} {v : Variant} :
    nested.OfGrammar → c.In source.toList → Parser.variant nested seen c = .ok (v, d) →
      d.rest = [] ∨ d.peek = some '\n'
  /-- The check behind an entry refuses nothing. -/
  block {c : Cursor} {e : SyntaxError} :
    c.In source.toList → (Parser.block c = .error e ↔ Parser.entry c = .error e)
  /-- Nor does the one behind a variant. -/
  variantLine {nested : Nested} {seen : List Variant} {c : Cursor} {e : SyntaxError} :
    nested.OfGrammar → c.In source.toList →
      (Parser.variantLine nested seen c = .error e ↔ Parser.variant nested seen c = .error e)
  /-- Where a line end is missed, an arrow stands in front, with nothing but spaces between. -/
  parse {e : SyntaxError} :
    Resource.parse source = .error e → e.cause = .expectedToken '\n' →
      BehindArrow source.toList e.span.start

/-- Of the three checks for a line end only the one in the header of a selection can fail. -/
theorem Resource.parse_endsLines (source : String) : Resource.EndsLines source where
  entry := Parser.entry_atLineEnd
  variant hnested := Parser.variant_atLineEnd hnested.fills
  block := Parser.block_eq_error
  variantLine hnested := Parser.variantLine_eq_error hnested.fills
  parse h := (parse_error_aimed h).behindArrow

/-- A variant on the line of its arrow. -/
theorem Resource.parse_endsLines_arrow :
    ∃ e : SyntaxError, parse "a = \x7b $b ->  x" = .error e ∧ e.cause = .expectedToken '\n' ∧
      e.span.start = 13 ∧ BehindArrow "a = \x7b $b ->  x".toList e.span.start := by
  let e : SyntaxError := ⟨.expectedToken '\n', ⟨13, 14⟩⟩
  have hparse : parse "a = \x7b $b ->  x" = .error e := by cbv
  exact ⟨e, hparse, rfl, rfl, (parse_endsLines _).parse hparse rfl⟩

end MessageLint
