-- SUMMARY: Reading the canonical text of a resource gives the resource back.
import MessageLint.Proofs.Canonical.Entry

/-!
# Recovery of resources

The text of a resource is read block by block. An entry with a comment is two blocks, of which the
first touches the second; a blank line keeps all others apart, so attaching puts every comment back to
where it was.
-/

namespace MessageLint

-- ---------------------------------------------------------------------------
-- Entries as blocks
-- ---------------------------------------------------------------------------

namespace Entry

/-- The blocks that an entry is read as. -/
def blocks (e : Entry) : List Block :=
  e.note?.toList.map (fun c => ⟨.comment .note c, true⟩) ++ [⟨e.own, false⟩]

theorem render_eq (e : Entry) : e.render = renderNote e.note? ++ e.own.render := by
  cases e <;> rfl

theorem own_canonical {e : Entry} (h : e.Canonical) : e.own.Canonical := by
  cases e <;> exact h

@[simp] theorem note?_own (e : Entry) : e.own.note? = none := by
  cases e <;> rfl

theorem own_respan_forget {e : Entry} (h : e.note? = none) :
    e.own.respan .forget = e.respan .forget := by
  cases e with
  | message m => simp_all [own, note?, respan, Message.respan]
  | term t => simp_all [own, note?, respan, Term.respan]
  | comment => rfl

/-- A comment that is taken off an entry and attached again is back where it was. -/
theorem withComment_own {e : Entry} {c : Comment} (h : e.note? = some c) :
    ∃ e', e.own.withComment c = some e' ∧ e'.respan .forget = e.respan .forget := by
  cases e with
  | message m => exact ⟨_, rfl, by simp_all [note?, respan, Message.respan]⟩
  | term t => exact ⟨_, rfl, by simp_all [note?, respan, Term.respan]⟩
  | comment => simp [note?] at h

end Entry

namespace Block

/-- The blank line between a block and those behind it, unless it touches them. -/
def gap (b : Block) (bs : List Block) : List Char :=
  if bs.isEmpty || b.touchesNext then [] else ['\n']

def renderAll : List Block → List Char
  | [] => []
  | b :: bs => b.entry.render ++ '\n' :: (b.gap bs ++ renderAll bs)

/-- The blocks can be written: none has a comment yet, and only a comment touches what is next, which
is no comment. -/
def AllCanonical : List Block → Prop
  | [] => True
  | b :: bs =>
    b.entry.Canonical ∧ b.entry.note? = none ∧
      (b.touchesNext → b.entry.isComment ∧ ∃ next, bs.head? = some next ∧ ¬next.entry.isComment) ∧
      AllCanonical bs

theorem renderAll_blocks (e : Entry) (bs : List Block) :
    renderAll (e.blocks ++ bs) =
      e.render ++ '\n' :: ((if bs.isEmpty then [] else ['\n']) ++ renderAll bs) := by
  rw [Entry.render_eq]
  cases hnote : e.note? with
  | none => simp [Entry.blocks, hnote, renderAll, renderNote, gap]
  | some c => simp [Entry.blocks, hnote, renderAll, renderNote, Entry.render, gap]

theorem renderAll_flatMap (es : List Entry) :
    renderAll (es.flatMap Entry.blocks) = ['\n'].intercalate (es.map fun e => e.render ++ ['\n']) := by
  induction es with
  | nil => rfl
  | cons e es ih =>
    rw [List.flatMap_cons, renderAll_blocks, ih]
    cases es with
    | nil => simp
    | cons e' es =>
      have hne : ((e' :: es).flatMap Entry.blocks).isEmpty = false := by simp [Entry.blocks]
      rw [hne]
      simp [List.intercalate_cons_cons]

theorem allCanonical_blocks {es : List Entry} (h : ∀ e ∈ es, e.Canonical) :
    AllCanonical (es.flatMap Entry.blocks) := by
  induction es with
  | nil => trivial
  | cons e es ih =>
    obtain ⟨he, hes⟩ := List.forall_mem_cons.1 h
    have hown : AllCanonical (⟨e.own, false⟩ :: es.flatMap Entry.blocks) :=
      ⟨Entry.own_canonical he, e.note?_own, by simp, ih hes⟩
    rw [List.flatMap_cons, Entry.blocks]
    cases hnote : e.note? with
    | none => exact hown
    | some c =>
      refine ⟨trivial, rfl, fun _ => ⟨rfl, _, rfl, ?_⟩, hown⟩
      cases e with
      | message | term => simp [Entry.own, Entry.isComment]
      | comment => simp [Entry.note?] at hnote

theorem attach_blocks (es : List Entry) :
    (attach (es.flatMap Entry.blocks)).map (·.respan .forget) = es.map (·.respan .forget) := by
  induction es with
  | nil => rfl
  | cons e es ih =>
    rw [List.flatMap_cons, Entry.blocks]
    cases hnote : e.note? with
    | none =>
      change (attach (⟨e.own, false⟩ :: es.flatMap Entry.blocks)).map _ = _
      rw [attach_cons (by simp), List.map_cons, List.map_cons, ih, Entry.own_respan_forget hnote]
    | some c =>
      obtain ⟨e', hattach, he'⟩ := Entry.withComment_own hnote
      change (attach (⟨.comment .note c, true⟩ :: ⟨e.own, false⟩ :: es.flatMap Entry.blocks)).map _ = _
      simp only [attach, hattach, List.map_cons, ih, he']

end Block

-- ---------------------------------------------------------------------------
-- Reading blocks
-- ---------------------------------------------------------------------------

namespace Parser

variable {bs : List Block} {b : Block} {rest : List Char}

theorem Starts.plain {e : Entry} {ch : Char} (h : Starts e ch) :
    Cursor.isBlank ch = false ∧ ch ≠ '\x7b' ∧ ch ≠ '.' := by
  cases e with
  | comment level c =>
    obtain rfl : ch = '#' := h
    decide
  | term t =>
    obtain rfl : ch = '-' := h
    decide
  | message m =>
    have halpha : ch.isAlpha := h
    refine ⟨(opens_of_isAlphanum (by simp [Char.isAlphanum, halpha])).1, ?_, ?_⟩
    · rintro rfl
      exact absurd halpha (by decide)
    · rintro rfl
      exact absurd halpha (by decide)

theorem Starts.ne_marker {e : Entry} {ch : Char} (h : Starts e ch) (he : ¬e.isComment) : ch ≠ '#' := by
  rintro rfl
  cases e with
  | comment level c => exact he rfl
  | term t => exact absurd (show '#' = '-' from h) (by decide)
  | message m => exact absurd (show '#'.isAlpha from h) (by decide)

theorem exists_head_of_blocks (h : Block.AllCanonical (b :: bs)) :
    ∃ ch tail, Block.renderAll (b :: bs) = ch :: tail ∧ Starts b.entry ch := by
  obtain ⟨ch, tail, hhead, hstarts⟩ := exists_head_of_entry h.1 h.2.1
  exact ⟨ch, _, by rw [Block.renderAll, hhead, List.cons_append], hstarts⟩

/-- The blocks behind a block end its entry. -/
theorem endsEntry_blocks (h : Block.AllCanonical (b :: bs)) :
    EndsEntry b.entry ('\n' :: (b.gap bs ++ Block.renderAll bs)) := by
  obtain ⟨-, -, htouches, hbs⟩ := h
  obtain ⟨entry, touchesNext⟩ := b
  cases bs with
  | nil =>
    cases entry with
    | comment => exact ⟨[], rfl, by simp⟩
    | message | term => exact ⟨endsPattern_end, by simp [Block.gap, Block.renderAll, Cursor.isBlank]⟩
  | cons next bs =>
    obtain ⟨ch, tail, hhead, hstarts⟩ := exists_head_of_blocks hbs
    obtain ⟨hblank, hopen, hdot⟩ := hstarts.plain
    rw [hhead]
    cases touchesNext with
    | true =>
      obtain ⟨hcomment, next', hnext, hdefinition⟩ := htouches rfl
      obtain rfl : next = next' := by simpa using hnext
      cases entry with
      | comment => exact ⟨ch :: tail, rfl, by simpa using hstarts.ne_marker hdefinition⟩
      | message | term => simp [Entry.isComment] at hcomment
    | false =>
      cases entry with
      | comment => exact ⟨'\n' :: ch :: tail, rfl, by simp⟩
      | message | term =>
        refine ⟨endsPattern_blankLine hblank hopen, ?_⟩
        have hskip : (['\n', '\n'] ++ ch :: tail).dropWhile Cursor.isBlank = ch :: tail :=
          Stops.dropWhile (stops_cons.2 hblank) (by simp [Cursor.isBlank])
        change ((['\n', '\n'] ++ ch :: tail).dropWhile Cursor.isBlank).head? ≠ some '.'
        rw [hskip]
        simpa using hdot

/-- What is skipped behind a block tells whether it touches the next one. -/
theorem skipBlankLines_blocks (h : Block.AllCanonical (b :: bs)) (offset : Nat) :
    ∃ lines offset', Cursor.skipBlankLines ⟨b.gap bs ++ Block.renderAll bs, offset⟩ =
        (lines, ⟨Block.renderAll bs, offset'⟩) ∧
      (decide (lines = 0) && !(Block.renderAll bs).isEmpty) = b.touchesNext := by
  obtain ⟨-, -, htouches, hbs⟩ := h
  obtain ⟨entry, touchesNext⟩ := b
  cases bs with
  | nil =>
    cases touchesNext with
    | true =>
      obtain ⟨-, next, hnext, -⟩ := htouches rfl
      simp at hnext
    | false => exact ⟨0, offset, rfl, rfl⟩
  | cons next bs =>
    obtain ⟨ch, tail, hhead, hstarts⟩ := exists_head_of_blocks hbs
    rw [hhead]
    cases touchesNext with
    | true => exact ⟨0, offset, Cursor.skipBlankLines_of_peek rfl hstarts.plain.1, rfl⟩
    | false =>
      refine ⟨1, offset + 1, ?_, rfl⟩
      exact Cursor.skipBlankLinesFrom_spaces _ _ _ (List.forall_mem_nil (· = ' ')) hstarts.plain.1

/-- A block is read together with the blank line behind it. -/
theorem block_recovers (h : Block.AllCanonical (b :: bs)) :
    block.Recovers (·.respan .forget) b (b.entry.render ++ '\n' :: b.gap bs) (Block.renderAll bs) := by
  refine .bind (entry_recovers h.1 h.2.1 (endsEntry_blocks h)) fun e' he' => .lineEnd_bind ?_
  intro offset
  obtain ⟨lines, offset', hskip, htouches⟩ := skipBlankLines_blocks h offset
  refine ⟨⟨e', decide (lines = 0) && !(Block.renderAll bs).isEmpty⟩, offset', ?_, ?_⟩
  · rw [skipBlankLines_bind, hskip]
    rfl
  · simp [Block.respan, he', htouches]

theorem gather_blocks_recovers (h : Block.AllCanonical bs) :
    (gather (fun _ c => !c.atEnd) (fun _ => block) []).Recovers (List.map (·.respan .forget)) bs
      (Block.renderAll bs) [] := by
  apply Recovers.gather (M := fun _ todo text =>
    text = Block.renderAll todo ∧ Block.AllCanonical todo)
  · rintro seen text ⟨rfl, -⟩
    exact ⟨rfl, fun _ => rfl⟩
  · rintro seen b bs text ⟨rfl, h⟩
    obtain ⟨ch, tail, hhead, -⟩ := exists_head_of_entry h.1 h.2.1
    refine ⟨b.entry.render ++ '\n' :: b.gap bs, Block.renderAll bs, ?_, by simp, ?_, ?_, ?_⟩
    · rw [Block.renderAll, List.append_assoc, List.cons_append]
    · intro offset
      simp [Cursor.atEnd]
    · rw [List.append_nil]
      exact block_recovers h
    · exact fun _ _ => ⟨rfl, h.2.2.2⟩
  · exact ⟨rfl, h⟩

end Parser

-- ---------------------------------------------------------------------------
-- Resources
-- ---------------------------------------------------------------------------

/-- A resource that can be written is read back from its text, up to spans. -/
theorem Resource.parse_render (r : Resource) (h : r.Canonical) :
    ∃ r', Resource.parse r.render = .ok r' ∧ r'.respan Span.forget = r.respan Span.forget := by
  have hblocks := Block.allCanonical_blocks h
  have htext : r.render.toList = Block.renderAll (r.body.flatMap Entry.blocks) := by
    rw [Resource.render, String.toList_ofList, Block.renderAll_flatMap]
  have hstart : (Cursor.ofString r.render).skipBlankLines = (0, Cursor.ofString r.render) := by
    cases hbody : r.body.flatMap Entry.blocks with
    | nil =>
      have hempty : Cursor.ofString r.render = ⟨[], 0⟩ := by
        rw [Cursor.ofString, htext, hbody]
        rfl
      rw [hempty]
      rfl
    | cons b bs =>
      rw [hbody] at hblocks htext
      obtain ⟨ch, tail, hhead, hstarts⟩ := Parser.exists_head_of_blocks hblocks
      refine Cursor.skipBlankLines_of_peek ?_ hstarts.plain.1
      rw [Cursor.peek, Cursor.ofString, htext, hhead]
      rfl
  obtain ⟨bs, offset, hrun, hbs⟩ := Parser.gather_blocks_recovers hblocks 0
  rw [List.append_nil, ← htext] at hrun
  refine ⟨⟨Block.attach bs, ⟨0, offset⟩⟩, ?_, ?_⟩
  · have hread : Parser.blocks (.ofString r.render) = .ok (bs, ⟨[], offset⟩) := by
      rw [Parser.blocks, Parser.skipBlankLines_bind, hstart]
      exact hrun
    rw [Resource.parse, hread]
  · have hattach (bs : List Block) := Block.attach_respan (f := Span.forget) (fun _ _ => rfl) bs
    have hbody : (Block.attach bs).map (·.respan .forget) = r.body.map (·.respan .forget) := by
      rw [← hattach, hbs, hattach, Block.attach_blocks]
    simp [Resource.respan, hbody]

theorem Resource.parse_render_greeting :
    let greeting : Resource :=
      ⟨[.message ⟨⟨"hi", .empty 0⟩,
          some ⟨[.text ⟨"Hi, ", .empty 0⟩,
            .placeable ⟨.inline (.variableRef ⟨"user", .empty 0⟩ (.empty 0)), .empty 0⟩], .empty 0⟩,
          [], some ⟨"Shown first.", .empty 0⟩, .empty 0⟩], .empty 0⟩
    greeting.render = "# Shown first.\nhi = Hi, \x7b $user \x7d\n" ∧
      ∃ r', Resource.parse "# Shown first.\nhi = Hi, \x7b $user \x7d\n" = .ok r' ∧
        r'.respan Span.forget = greeting.respan Span.forget := by
  intro greeting
  have hrender : greeting.render = "# Shown first.\nhi = Hi, \x7b $user \x7d\n" := by cbv
  have hcanonical : greeting.Canonical := by
    simp [greeting, Resource.Canonical, Entry.Canonical, Pattern.Canonical, Element.Apart,
      Element.Trimmed, Element.AllCanonical, Element.Canonical, Placeable.Canonical,
      Expression.Canonical, Inline.Canonical, Inline.IsTermAttribute, Identifier.Canonical, IsName,
      isNameChar]
  exact ⟨hrender, hrender ▸ Resource.parse_render greeting hcanonical⟩

end MessageLint
