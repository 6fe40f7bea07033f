-- SUMMARY: Every entry and every comment of a source is accounted for, and comments go where they belong.
import MessageLint.Proofs.Spans.Resource

/-!
# Attachment of comments

A source is read as a list of blocks, and `Block.attach` makes the body of the resource from them.
`Block.Lie` says how the blocks lie in the source: each starts a line and ends one, nothing but blanks
lies between them, and a block says that it touches the next one exactly when only a line end
separates them. From that follows what attaching does: `attach_separate` gives back what was read, in
order, so nothing is lost or doubled, and `note_iff` says which comment goes to which definition. The
last block of a source touches nothing (`Parser.blocks_last`), so no comment is ever left that still waits
for its definition.
-/

namespace MessageLint

-- ---------------------------------------------------------------------------
-- Entries and their comments
-- ---------------------------------------------------------------------------

namespace Entry

/-- The comment that belongs to a message or term. -/
def note? : Entry → Option Comment
  | .message m => m.comment
  | .term t => t.comment
  | .comment .. => none

/-- Where an entry starts when its comment is left out: a message with its name, a term one byte
before that. -/
def ownStart : Entry → Nat
  | .message m => m.id.span.start
  | .term t => t.id.span.start - 1
  | .comment _ c => c.span.start

/-- An entry without its comment. -/
def own : Entry → Entry
  | .message m => .message { m with comment := none, span := ⟨m.id.span.start, m.span.stop⟩ }
  | .term t => .term { t with comment := none, span := ⟨t.id.span.start - 1, t.span.stop⟩ }
  | .comment level c => .comment level c

/-- The comment of an entry and the entry without it, each on its own. -/
def separate (e : Entry) : List Entry := e.note?.toList.map (.comment .note) ++ [e.own]

/-- An entry that was read by itself has no comment yet. -/
structure Bare (e : Entry) : Prop where
  note?_eq : e.note? = none
  own_eq : e.own = e

variable {e e' : Entry} {c : Comment}

theorem own_mem_separate (e : Entry) : e.own ∈ e.separate := by simp [separate]

theorem comment_mem_separate {level : CommentLevel} (h : .comment level c ∈ e.separate) :
    level = .note ∧ e.note? = some c ∨ e = .comment level c := by
  cases e with
  | message m => simp_all [separate, own, note?, eq_comm]
  | term t => simp_all [separate, own, note?, eq_comm]
  | comment => simp_all [separate, own, note?]

@[simp] theorem isComment_own (e : Entry) : e.own.isComment = e.isComment := by cases e <;> rfl

@[simp] theorem span_own_start (e : Entry) : e.own.span.start = e.ownStart := by cases e <;> rfl

theorem Bare.separate_eq (h : e.Bare) : e.separate = [e] := by
  simp [separate, h.note?_eq, h.own_eq]

/-- What an entry is once it has been given a comment. -/
structure Gets (c : Comment) (e e' : Entry) : Prop where
  isComment_eq : e'.isComment = false
  note?_eq : e'.note? = some c
  own_eq : e'.own = e.own
  span_eq : e'.span = ⟨c.span.start, e.span.stop⟩

theorem withComment_gets (h : e.withComment c = some e') : e.Gets c e' := by
  cases e with
  | message m => obtain rfl := Option.some.inj h; exact ⟨rfl, rfl, rfl, rfl⟩
  | term t => obtain rfl := Option.some.inj h; exact ⟨rfl, rfl, rfl, rfl⟩
  | comment => simp [withComment] at h

theorem isComment_of_withComment (h : e.withComment c = none) : e.isComment := by
  cases e <;> simp_all [withComment, isComment]

end Entry

-- ---------------------------------------------------------------------------
-- Entries where they were read
-- ---------------------------------------------------------------------------

/-- The start of the source, or a place behind a line end. -/
def LineStart (source : List Char) (offset : Nat) : Prop :=
  offset = 0 ∨ ∃ before after, source = before ++ '\n' :: after ∧ offset = byteLength before + 1

/-- The end of the source, or a place in front of a line end. -/
def LineEnd (source : List Char) (offset : Nat) : Prop :=
  offset = byteLength source ∨
    ∃ before after, source = before ++ '\n' :: after ∧ offset = byteLength before

namespace Parser

variable {source : String} {c d : Cursor} {e : Entry}

theorem entry_bare (h : entry c = .ok (e, d)) : e.Bare ∧ e.span = c.spanTo d := by
  obtain ⟨-, h⟩ | ⟨hpeek, h⟩ | h := entry_ok h
  · obtain ⟨level, first, m, lines, -, -, -, rfl⟩ := comment_ok h
    exact ⟨⟨rfl, rfl⟩, rfl⟩
  · obtain ⟨id, m, value, m', attrs, hid, -, -, -, rfl⟩ := term_ok h
    obtain ⟨-, -, rfl⟩ := identifier_ok hid
    have hstart : c.next.offset - 1 = c.offset := by
      rw [(Cursor.reads_next_of_peek hpeek).offset]; rfl
    exact ⟨⟨rfl, by simp [Entry.own, Cursor.spanTo, hstart]⟩, rfl⟩
  · obtain ⟨id, m, value, m', attrs, hid, -, -, -, -, rfl⟩ := message_ok h
    obtain ⟨-, -, rfl⟩ := identifier_ok hid
    exact ⟨⟨rfl, rfl⟩, rfl⟩

theorem identifier_forward {id : Identifier} (h : identifier c = .ok (id, d)) :
    c.offset < id.span.stop := by
  obtain ⟨⟨first, hpeek, halpha⟩, rfl, rfl⟩ := identifier_ok h
  obtain ⟨r, hr⟩ := Cursor.peek_eq_some.1 hpeek
  have hname : isNameChar first := by simp [isNameChar, Char.isAlphanum, halpha]
  have hpos := first.utf8Size_pos
  simp only [Cursor.spanTo, Cursor.skipWhile, hr, List.takeWhile_cons_of_pos hname,
    byteLength_cons]
  omega

theorem entry_forward (hc : c.In source.toList) (h : entry c = .ok (e, d)) :
    c.offset < d.offset := by
  have hfilled := entry_fills hc h
  have hplaced := (hfilled.row.sound List.mem_cons_self).placed
  have hspan : (Node.entry e).span = c.spanTo d := (entry_bare h).2
  -- the name of a definition is not empty and lies under its span
  have hname : ∀ {id m m'}, Node.identifier id ∈ (Node.entry e).children → c.offset ≤ m.offset →
      identifier m = .ok (id, m') → c.offset < d.offset := by
    intro id m m' hmem hle hid
    have hlt := identifier_forward hid
    have hstop : id.span.stop ≤ d.offset := by
      have := (hplaced.covers _ hmem).2
      rwa [hspan] at this
    omega
  obtain ⟨-, hcomment⟩ | ⟨-, hterm⟩ | hmessage := entry_ok h
  · obtain ⟨text, hreads⟩ := hfilled.reads
    obtain ⟨level, first, m, lines, -, -, -, rfl⟩ := comment_ok hcomment
    obtain ⟨text', hslice, hshows⟩ := hplaced.shows
    rw [hspan, hreads.slice? hc] at hslice
    obtain rfl := Option.some.inj hslice
    have hne : text ≠ [] := by
      rintro rfl
      exact hshows.ne_nil rfl
    have := byteLength_pos hne
    rw [hreads.offset]
    omega
  · obtain ⟨id, m, value, m', attrs, hid, -, -, -, rfl⟩ := term_ok hterm
    obtain ⟨dash, hdash⟩ := c.reads_next
    exact hname (by simp [Node.children]) hdash.le hid
  · obtain ⟨id, m, value, m', attrs, hid, -, -, -, -, rfl⟩ := message_ok hmessage
    exact hname (by simp [Node.children]) (Nat.le_refl _) hid

theorem block_forward {b : Block} (hc : c.In source.toList) (h : block c = .ok (b, d)) :
    d.rest.length < c.rest.length := by
  obtain ⟨m, hentry, -, rfl, -⟩ := block_ok h
  obtain ⟨text, hreads⟩ := (entry_fills hc hentry).reads
  obtain ⟨lineEnd, hnext⟩ := m.reads_next
  obtain ⟨blank, hblank⟩ := m.next.skipBlankLines_ends
  exact Nat.lt_of_le_of_lt (hnext.trans hblank.reads).length_le
    (hreads.length_lt (entry_forward hc hentry))

end Parser

section Lines

variable {source : String} {c d : Cursor} {text : List Char} {lines : Nat}

theorem LineEnd.of_peek (hc : c.In source.toList) (h : c.rest = [] ∨ c.peek = some '\n') :
    LineEnd source.toList c.offset := by
  obtain ⟨before, hs, ho⟩ := hc
  obtain hnil | hpeek := h
  · exact .inl (by rw [hs, hnil, List.append_nil, ho])
  · obtain ⟨r, hr⟩ := Cursor.peek_eq_some.1 hpeek
    exact .inr ⟨before, r, by rw [hs, hr], ho⟩

theorem LineStart.next (hc : c.In source.toList) (h : c.peek = some '\n') :
    LineStart source.toList c.next.offset := by
  obtain ⟨before, hs, ho⟩ := hc
  obtain ⟨r, hr⟩ := Cursor.peek_eq_some.1 h
  exact .inr ⟨before, r, by rw [hs, hr], by rw [(Cursor.reads_next_of_peek h).offset, ho]; rfl⟩

/-- Skipping blank lines goes from the start of a line to the start of a line. -/
theorem LineStart.skip (hstart : LineStart source.toList c.offset) (hc : c.In source.toList)
    (h : c.EndsBlankLines text lines d) (hd : d.rest ≠ []) : LineStart source.toList d.offset := by
  obtain hnil | ⟨rfl | hlast, -⟩ := h.stop
  · exact absurd hnil hd
  · rw [h.reads.offset]; exact hstart
  · obtain ⟨line, rfl⟩ := List.getLast?_eq_some_iff.1 hlast
    obtain ⟨before, hs, ho⟩ := hc
    refine .inr ⟨before ++ line, d.rest, by rw [hs, h.reads.rest]; simp, ?_⟩
    rw [h.reads.offset, ho]
    simp [Char.utf8Size, Nat.add_assoc]

end Lines

-- ---------------------------------------------------------------------------
-- Blocks where they were read
-- ---------------------------------------------------------------------------

namespace Block

/-- The block `b` was read from `c`: its entry reaches to `m`, the blanks behind it to `d`. -/
structure Stands (source : String) (c : Cursor) (b : Block) (m d : Cursor) : Prop where
  start : c.In source.toList
  reads : ∃ text, c.Reads text m
  blank : ∃ text, m.Reads text d ∧ ∀ ch ∈ text, Cursor.isBlank ch
  bare : b.entry.Bare
  span : b.entry.span = c.spanTo m
  forward : c.offset < m.offset
  lineStart : LineStart source.toList c.offset
  lineEnd : LineEnd source.toList m.offset
  behind : d.rest ≠ [] → m.offset < d.offset ∧ LineStart source.toList d.offset
  touches : b.touchesNext ↔ d.rest ≠ [] ∧ d.offset = m.offset + 1

/-- The blocks `bs` are what is read from `c` to the end of the source. -/
inductive Lie (source : String) : Cursor → List Block → Prop
  | nil {c : Cursor} : c.In source.toList → c.rest = [] → Lie source c []
  | cons {c m d : Cursor} {b : Block} {bs : List Block} :
      b.Stands source c m d → Lie source d bs → Lie source c (b :: bs)

end Block

namespace Parser

variable {source : String} {c d : Cursor} {b : Block} {bs : List Block}

/-- Behind the line end of an entry: at the end of the source, or one byte on at the next line. -/
private theorem lineEnd_reads {m : Cursor} (h : m.rest = [] ∨ m.peek = some '\n') :
    ∃ text, m.Reads text m.next ∧ (∀ ch ∈ text, Cursor.isBlank ch) ∧
      (m.next.rest ≠ [] → m.peek = some '\n' ∧ m.next.offset = m.offset + 1) := by
  obtain hnil | hpeek := h
  · have hnext : m.next = m := by simp [Cursor.next, hnil]
    rw [hnext]
    exact ⟨[], .refl m, by simp, fun hne => absurd hnil hne⟩
  · have hreads := Cursor.reads_next_of_peek hpeek
    exact ⟨_, hreads, by simp [Cursor.isBlank], fun _ => ⟨hpeek, hreads.offset⟩⟩

/-- Between two lines with something on them, no blank line has been skipped if nothing was. -/
private theorem count_eq_zero_iff {m : Cursor} {text : List Char} {lines : Nat}
    (h : m.EndsBlankLines text lines d) (hd : d.rest ≠ []) : lines = 0 ↔ d.offset = m.offset := by
  have htext := (h.stop.resolve_left hd).1
  rw [h.count, h.reads.offset, List.count_eq_zero]
  constructor
  · intro hnot
    obtain rfl | hlast := htext
    · rfl
    · exact absurd (List.mem_of_getLast? hlast) hnot
  · intro hlen hmem
    have := byteLength_pos (List.ne_nil_of_mem hmem)
    omega

theorem block_stands (hc : c.In source.toList) (hstart : LineStart source.toList c.offset)
    (h : block c = .ok (b, d)) : ∃ m, b.Stands source c m d := by
  obtain ⟨m, hentry, hend, rfl, htouches⟩ := block_ok h
  obtain ⟨text, hreads⟩ := (entry_fills hc hentry).reads
  obtain ⟨hbare, hspan⟩ := entry_bare hentry
  have hm := hreads.in hc
  obtain ⟨lineEnd, hnext, hlineEnd, hnewline⟩ := lineEnd_reads hend
  obtain ⟨blank, hblank⟩ := m.next.skipBlankLines_ends
  have hnonempty : m.next.skipBlankLines.2.rest ≠ [] → m.next.rest ≠ [] :=
    fun hd hnil => hd (hblank.reads.rest_eq_nil hnil)
  refine ⟨m, hc, ⟨text, hreads⟩, ⟨_, hnext.trans hblank.reads, ?_⟩, hbare, hspan,
    entry_forward hc hentry, hstart, .of_peek hm hend, fun hd => ?_, ?_⟩
  · intro ch hch
    exact (List.mem_append.1 hch).elim (hlineEnd ch) (hblank.blank ch)
  · obtain ⟨hpeek, hoffset⟩ := hnewline (hnonempty hd)
    have hle := hblank.reads.le
    exact ⟨by omega, (LineStart.next hm hpeek).skip (hnext.in hm) hblank hd⟩
  · rw [htouches, and_comm]
    refine and_congr_right fun hd => ?_
    rw [count_eq_zero_iff hblank hd, (hnewline (hnonempty hd)).2]

theorem blocks_lie {blocks : List Block} (h : Parser.blocks (.ofString source) = .ok (blocks, d)) :
    ∃ c, Block.Lie source c blocks ∧ ∃ text, (Cursor.ofString source).Reads text c ∧
      ∀ ch ∈ text, Cursor.isBlank ch := by
  rw [Parser.blocks, skipBlankLines_bind] at h
  have hsource := Cursor.in_ofString source
  obtain ⟨blank, hblank⟩ := (Cursor.ofString source).skipBlankLines_ends
  refine ⟨_, ?_, blank, hblank.reads, hblank.blank⟩
  obtain ⟨new, rfl, hnew⟩ := gather_rounds
    (I := fun c => c.In source.toList ∧ (c.rest ≠ [] → LineStart source.toList c.offset))
    (P := Block.Lie source)
    (fun c hc hend => .nil hc.1 (by simpa [Cursor.atEnd] using hend))
    (fun c b d hc hmore hrun => by
      obtain ⟨hc, hstart⟩ := hc
      obtain ⟨m, hm⟩ := block_stands hc (hstart (by simpa [Cursor.atEnd] using hmore)) hrun
      obtain ⟨text, hreads⟩ := hm.reads
      obtain ⟨blank, hblank, -⟩ := hm.blank
      exact ⟨block_forward hc hrun, ⟨hblank.in (hreads.in hc), fun hd => (hm.behind hd).2⟩,
        fun _ hlie => .cons hm hlie⟩)
    ⟨hblank.reads.in hsource, (LineStart.skip (.inl rfl) hsource hblank)⟩ h
  exact hnew

end Parser

-- ---------------------------------------------------------------------------
-- Attaching
-- ---------------------------------------------------------------------------

namespace Block

variable {source : String} {c : Cursor} {b : Block} {bs pre more : List Block} {e : Entry} {k : Comment}

variable {m d : Cursor}

theorem Stands.lt (h : b.Stands source c m d) : c.offset < d.offset := by
  obtain ⟨blank, hblank, -⟩ := h.blank
  exact Nat.lt_of_lt_of_le h.forward hblank.le

theorem Stands.rest_ne_nil (h : b.Stands source c m d) : c.rest ≠ [] := by
  obtain ⟨text, hreads⟩ := h.reads
  have := hreads.length_lt h.forward
  exact List.length_pos_iff.1 (by omega)

theorem Lie.bare (h : Lie source c bs) (hb : b ∈ bs) : b.entry.Bare := by
  induction h with
  | nil => simp at hb
  | cons hfirst _ ih => exact (List.mem_cons.1 hb).elim (fun heq => heq ▸ hfirst.bare) ih

theorem Lie.span_ge (h : Lie source c bs) (hb : b ∈ bs) :
    c.offset ≤ b.entry.span.start ∧ b.entry.span.start < b.entry.span.stop := by
  induction h with
  | nil => simp at hb
  | cons hfirst _ ih =>
    obtain rfl | hb := List.mem_cons.1 hb
    · rw [hfirst.span]
      exact ⟨Nat.le_refl _, hfirst.forward⟩
    · exact ⟨Nat.le_trans (Nat.le_of_lt hfirst.lt) (ih hb).1, (ih hb).2⟩

/-- Nothing stands behind the last block that it could touch. -/
theorem Lie.last (h : Lie source c bs) (hlast : bs.getLast? = some b) : b.touchesNext = false := by
  induction h with
  | nil => simp at hlast
  | cons hfirst hrest ih =>
    cases hrest with
    | nil _ hend =>
      obtain rfl := by simpa using hlast
      exact Bool.eq_false_iff.2 fun htouches => (hfirst.touches.1 htouches).1 hend
    | cons => exact ih (by rwa [List.getLast?_cons_cons] at hlast)

theorem Lie.of_append (h : Lie source c (pre ++ bs)) :
    ∃ d, c.offset ≤ d.offset ∧ Lie source d bs := by
  induction pre generalizing c with
  | nil => exact ⟨c, Nat.le_refl _, h⟩
  | cons b pre ih =>
    obtain _ | ⟨hfirst, hrest⟩ := h
    obtain ⟨d, hle, hd⟩ := ih hrest
    exact ⟨d, Nat.le_trans (Nat.le_of_lt hfirst.lt) hle, hd⟩

/-- A note at the end of the first list finds nothing in the second one that it belongs to. -/
theorem attach_append_of_none (h : ∀ c, bs.getLast? = some ⟨.comment .note c, true⟩ →
      ∀ b, more.head? = some b → b.entry.withComment c = none) :
    attach (bs ++ more) = attach bs ++ attach more := by
  fun_induction attach bs with
  | case1 => rfl
  | case2 c next rest e he ih =>
    simp only [List.cons_append, attach, he]
    rw [ih fun k hk => h k (by simp [List.getLast?_cons, hk])]
  | case3 c next rest he ih =>
    rw [List.cons_append, List.cons_append, attach, he]
    simp only
    rw [← List.cons_append, ih fun k hk => h k (by rwa [List.getLast?_cons_cons])]
    rfl
  | case4 b rest hnot ih =>
    obtain ⟨entry, touchesNext⟩ := b
    by_cases hnote : touchesNext ∧ ∃ c, entry = .comment .note c
    · obtain ⟨rfl, c, rfl⟩ := hnote
      cases rest with
      | nil =>
        cases more with
        | nil =>
          rw [List.append_nil, attach_singleton]
          rfl
        | cons b more => simp [attach, h c rfl b rfl]
      | cons next rest => exact absurd rfl (hnot c next rest rfl)
    · have hrest : attach (rest ++ more) = attach rest ++ attach more := by
        cases rest with
        | nil => rfl
        | cons next rest => exact ih fun k hk => h k (by rwa [List.getLast?_cons_cons])
      rw [List.cons_append, attach_cons fun htouch c hc => hnote ⟨htouch, c, hc⟩, hrest]
      rfl

/-- The last block of the first list does not reach for the second one. -/
theorem attach_append (h : ∀ b, bs.getLast? = some b → b.touchesNext = false) :
    attach (bs ++ more) = attach bs ++ attach more :=
  attach_append_of_none fun c hlast => absurd (h _ hlast) (by simp)

/-- Nothing is attached to a comment. -/
theorem attach_append_comment (hb : b.entry.isComment) :
    attach (bs ++ b :: more) = attach bs ++ attach (b :: more) :=
  attach_append_of_none fun c _ b' hhead => by
    obtain rfl : b = b' := by simpa using hhead
    obtain ⟨entry, _⟩ := b
    cases entry <;> simp_all [Entry.isComment, Entry.withComment]

/-- Attaching neither loses nor doubles an entry: taken apart again, the body is what was read. -/
theorem attach_separate (h : ∀ b ∈ bs, b.entry.Bare) :
    (attach bs).flatMap Entry.separate = bs.map Block.entry := by
  fun_induction attach bs with
  | case1 => rfl
  | case2 c next rest e he ih =>
    simp only [List.mem_cons, forall_eq_or_imp] at h
    obtain ⟨-, hnote, hown, -⟩ := Entry.withComment_gets he
    simp [Entry.separate, hnote, hown, h.2.1.own_eq, ← ih h.2.2]
  | case3 c next rest he ih =>
    simp only [List.mem_cons, forall_eq_or_imp] at h
    rw [List.flatMap_cons, h.1.separate_eq, ih (by simpa using h.2)]
    rfl
  | case4 b rest _ ih =>
    simp only [List.mem_cons, forall_eq_or_imp] at h
    rw [List.flatMap_cons, h.1.separate_eq, ih h.2]
    rfl

/-- An entry of the body was read as it is, or made from a comment and the entry it touches. -/
theorem mem_attach (h : e ∈ attach bs) :
    (∃ b ∈ bs, b.entry = e) ∨
      ∃ pre k next post, bs = pre ++ ⟨.comment .note k, true⟩ :: next :: post ∧
        next.entry.Gets k e := by
  fun_induction attach bs with
  | case1 => simp at h
  | case2 k next rest e' he ih =>
    obtain rfl | h := List.mem_cons.1 h
    · exact .inr ⟨[], k, next, rest, rfl, Entry.withComment_gets he⟩
    · obtain ⟨b, hb, rfl⟩ | ⟨pre, k', next', post, rfl, hgets⟩ := ih h
      · exact .inl ⟨b, by simp [hb], rfl⟩
      · exact .inr ⟨_ :: next :: pre, k', next', post, rfl, hgets⟩
  | case3 k next rest he ih =>
    obtain rfl | h := List.mem_cons.1 h
    · exact .inl ⟨_, List.mem_cons_self, rfl⟩
    · obtain ⟨b, hb, rfl⟩ | ⟨pre, k', next', post, heq, hgets⟩ := ih h
      · exact .inl ⟨b, List.mem_cons_of_mem _ hb, rfl⟩
      · exact .inr ⟨_ :: pre, k', next', post, by rw [heq]; rfl, hgets⟩
  | case4 b rest _ ih =>
    obtain rfl | h := List.mem_cons.1 h
    · exact .inl ⟨_, List.mem_cons_self, rfl⟩
    · obtain ⟨b, hb, rfl⟩ | ⟨pre, k', next', post, rfl, hgets⟩ := ih h
      · exact .inl ⟨b, List.mem_cons_of_mem _ hb, rfl⟩
      · exact .inr ⟨_ :: pre, k', next', post, rfl, hgets⟩

/-- How an entry of the body stands in the source, for a body that begins at `start`. -/
structure Settled (source : String) (start : Nat) (e : Entry) : Prop where
  start_le : start ≤ e.span.start
  lineStart : LineStart source.toList e.span.start
  lineEnd : LineEnd source.toList e.span.stop
  covers : ∀ part ∈ e.separate, e.span.start ≤ part.span.start ∧ part.span.stop ≤ e.span.stop
  note : ∀ k, e.note? = some k → e.ownStart = k.span.stop + 1 ∧ e.span.start = k.span.start

theorem Stands.start_lt_of_le {e' : Entry} (h : b.Stands source c m d)
    (hle : d.offset ≤ e'.span.start) : b.entry.span.start < e'.span.start := by
  rw [h.span]
  exact Nat.lt_of_lt_of_le h.lt hle

theorem Stands.settled (h : b.Stands source c m d) : Settled source c.offset b.entry where
  start_le := by rw [h.span]; exact Nat.le_refl _
  lineStart := by rw [h.span]; exact h.lineStart
  lineEnd := by rw [h.span]; exact h.lineEnd
  covers := by simp [h.bare.separate_eq]
  note := by simp [h.bare.note?_eq]

theorem Lie.settled (h : Lie source c bs) (he : e ∈ attach bs) : Settled source c.offset e := by
  obtain ⟨b, hb, rfl⟩ | ⟨pre, k, next, post, rfl, hgets⟩ := mem_attach he
  · obtain ⟨pre, post, rfl⟩ := List.append_of_mem hb
    obtain ⟨d, hle, hd⟩ := h.of_append
    obtain _ | ⟨hfirst, -⟩ := hd
    exact { hfirst.settled with start_le := Nat.le_trans hle hfirst.settled.start_le }
  · obtain ⟨d, hle, hd⟩ := h.of_append
    obtain _ | @⟨_, m, d', _, _, hfirst, hd'⟩ := hd
    obtain _ | @⟨_, m', _, _, _, hnext, -⟩ := hd'
    obtain ⟨-, hoffset⟩ := hfirst.touches.1 rfl
    have hk : k.span = d.spanTo m := hfirst.span
    have hspan : e.span = ⟨d.offset, m'.offset⟩ := by rw [hgets.span_eq, hk, hnext.span]; rfl
    have hown : e.own = next.entry := by rw [hgets.own_eq, hnext.bare.own_eq]
    have hforward := hfirst.forward
    have hforward' := hnext.forward
    refine ⟨?_, ?_, ?_, ?_, fun k' hk' => ?_⟩
    · rw [hspan]; exact hle
    · rw [hspan]; exact hfirst.lineStart
    · rw [hspan]; exact hnext.lineEnd
    · rw [hspan]
      simp only [Entry.separate, hgets.note?_eq, hown, Option.toList_some, List.map_cons,
        List.map_nil, List.cons_append, List.nil_append, List.mem_cons, List.not_mem_nil, or_false,
        forall_eq_or_imp, forall_eq]
      rw [hnext.span, show (Entry.comment .note k).span = d.spanTo m from hk]
      simp only [Cursor.spanTo]
      omega
    · obtain rfl : k = k' := Option.some.inj (hgets.note?_eq.symm.trans hk')
      have hownStart : e.ownStart = d'.offset := by
        rw [← Entry.span_own_start, hown, hnext.span]; rfl
      exact ⟨by rw [hownStart, hoffset, hk]; rfl, by rw [hspan, hk]; rfl⟩

theorem Lie.separate_mem (h : Lie source c bs) (he : e ∈ attach bs) {part : Entry}
    (hpart : part ∈ e.separate) : ∃ b ∈ bs, b.entry = part := by
  rw [← List.mem_map, ← attach_separate fun _ => h.bare]
  exact List.mem_flatMap.2 ⟨e, he, hpart⟩

/-- Each entry that was read starts behind the start of the one before it. -/
theorem Lie.pairwise_read (h : Lie source c bs) :
    (bs.map entry).Pairwise fun e e' => e.span.start < e'.span.start := by
  induction h with
  | nil => exact .nil
  | cons hfirst hrest ih =>
    refine .cons (List.forall_mem_map.2 fun b hb => ?_) ih
    exact hfirst.start_lt_of_le (hrest.span_ge hb).1

theorem Lie.pairwise_separate (h : Lie source c bs) :
    (attach bs).Pairwise fun e e' =>
      ∀ part ∈ e.separate, ∀ part' ∈ e'.separate, part.span.start < part'.span.start := by
  have hread := h.pairwise_read
  rw [← attach_separate fun _ => h.bare, List.pairwise_flatMap] at hread
  exact hread.2

theorem Lie.exists_start (h : Lie source c bs) (he : e ∈ attach bs) :
    ∃ part ∈ e.separate, part.span.start = e.span.start := by
  obtain ⟨b, hb, rfl⟩ | ⟨pre, k, next, post, rfl, hgets⟩ := mem_attach he
  · exact ⟨_, by rw [(h.bare hb).separate_eq]; exact List.mem_singleton_self _, rfl⟩
  · exact ⟨.comment .note k, by simp [Entry.separate, hgets.note?_eq], by rw [hgets.span_eq]; rfl⟩

/-- Each entry of the body starts behind the start of the one before it. -/
theorem Lie.pairwise (h : Lie source c bs) :
    (attach bs).Pairwise fun e e' => e.span.start < e'.span.start := by
  refine h.pairwise_separate.imp_of_mem fun {e e'} he he' hlt => ?_
  obtain ⟨part, hpart, hstart⟩ := h.exists_start he
  obtain ⟨part', hpart', hstart'⟩ := h.exists_start he'
  rw [← hstart, ← hstart']
  exact hlt part hpart part' hpart'

/-- So does its own part, without the comment. -/
theorem Lie.pairwise_own (h : Lie source c bs) :
    (attach bs).Pairwise fun e e' => e.ownStart < e'.ownStart := by
  refine h.pairwise_separate.imp fun {e e'} hlt => ?_
  rw [← Entry.span_own_start e, ← Entry.span_own_start e']
  exact hlt _ e.own_mem_separate _ e'.own_mem_separate

theorem Lie.eq_of_ownStart (h : Lie source c bs) (he : e ∈ attach bs) {e' : Entry}
    (he' : e' ∈ attach bs) (hstart : e.ownStart = e'.ownStart) : e = e' := by
  have hnodup : ((attach bs).map Entry.ownStart).Nodup :=
    List.pairwise_map.2 (h.pairwise_own.imp Nat.ne_of_lt)
  exact List.inj_on_of_nodup_map hnodup he he' hstart

/-- What was read one byte behind the end of an entry is the next block, and the entry touches it. -/
theorem Stands.next_of_start {b' : Block} (h : b.Stands source c m d) (hrest : Lie source d bs)
    (hb' : b' ∈ bs) (hstart : b'.entry.span.start = m.offset + 1) :
    b.touchesNext ∧ ∃ post, bs = b' :: post := by
  obtain _ | @⟨_, m', d', next, post, hnext, hlater⟩ := hrest
  · simp at hb'
  have hd := hnext.rest_ne_nil
  have hbehind := (h.behind hd).1
  obtain rfl | hb' := List.mem_cons.1 hb'
  · have hspan : b'.entry.span.start = d.offset := by rw [hnext.span]; rfl
    exact ⟨h.touches.2 ⟨hd, by omega⟩, post, rfl⟩
  · have := hnext.lt
    have := (hlater.span_ge hb').1
    omega

/-- What was read right behind the line end of a note is the block that the note touches. -/
theorem Lie.next_of_start {note next : Block} (h : Lie source c bs) (hmem : note ∈ bs)
    (hnote : note.entry = .comment .note k) (hnext : next ∈ bs)
    (hstart : next.entry.span.start = k.span.stop + 1) :
    ∃ pre post, bs = pre ++ ⟨.comment .note k, true⟩ :: next :: post := by
  have hspan : note.entry.span = k.span := by rw [hnote]; rfl
  induction h with
  | nil => simp at hmem
  | @cons c m d b bs hfirst hrest ih =>
    obtain rfl | hlater := List.mem_cons.1 hnext
    · -- what stands behind the note cannot be the first block
      have hfront : next.entry.span.start ≤ note.entry.span.start := by
        obtain rfl | hmem := List.mem_cons.1 hmem
        · exact Nat.le_refl _
        · exact Nat.le_of_lt (hfirst.start_lt_of_le (hrest.span_ge hmem).1)
      have := ((Lie.cons hfirst hrest).span_ge hmem).2
      rw [hspan] at hfront this
      omega
    obtain rfl | hmem := List.mem_cons.1 hmem
    · have hstop : k.span.stop = m.offset := by rw [← hspan, hfirst.span]; rfl
      obtain ⟨htouches, post, rfl⟩ := hfirst.next_of_start hrest hlater (hstop ▸ hstart)
      obtain ⟨entry, touchesNext⟩ := note
      obtain rfl : entry = .comment .note k := hnote
      obtain rfl : touchesNext = true := htouches
      exact ⟨[], post, rfl⟩
    · obtain ⟨pre, post, rfl⟩ := ih hmem hlater
      exact ⟨b :: pre, post, rfl⟩

/-- A definition that starts right behind the line end of a note has it as its comment. -/
theorem Lie.note_of_ownStart (h : Lie source c bs) (he : e ∈ attach bs)
    (hdef : e.isComment = false) (hk : ∃ b ∈ bs, b.entry = .comment .note k)
    (hstart : e.ownStart = k.span.stop + 1) : e.note? = some k := by
  obtain ⟨note, hmem, hnote⟩ := hk
  obtain ⟨next, hnext, hown⟩ := h.separate_mem he e.own_mem_separate
  have hnextStart : next.entry.span.start = e.ownStart := by rw [hown, Entry.span_own_start]
  obtain ⟨pre, post, rfl⟩ := h.next_of_start hmem hnote hnext (hnextStart.trans hstart)
  obtain ⟨e', he'⟩ : ∃ e', next.entry.withComment k = some e' := by
    refine Option.ne_none_iff_exists'.1 fun hnone => ?_
    have hcomment := Entry.isComment_of_withComment hnone
    simp [hown, hdef] at hcomment
  have hgets := Entry.withComment_gets he'
  have hmem' : e' ∈ attach (pre ++ ⟨.comment .note k, true⟩ :: next :: post) := by
    rw [attach_append_comment rfl, attach, he']
    simp
  have hsame : e'.ownStart = e.ownStart := by
    rw [← Entry.span_own_start e', hgets.own_eq, (h.bare (by simp)).own_eq, hnextStart]
  rw [h.eq_of_ownStart he hmem' hsame.symm]
  exact hgets.note?_eq

/-- What no entry that was read covers is blank. -/
theorem Lie.blank_of_uncovered (h : Lie source c bs) {d : Cursor} {ch : Char} {i : Nat}
    (hd : d.In source.toList) (hpeek : d.peek = some ch) (hle : c.offset ≤ d.offset)
    (hi : d.offset ≤ i ∧ i < d.offset + ch.utf8Size)
    (hout : ∀ b ∈ bs, ¬ (b.entry.span.start ≤ i ∧ i < b.entry.span.stop)) : Cursor.isBlank ch := by
  induction h with
  | nil hc hnil =>
    obtain ⟨text, hreads⟩ := hc.reads hd hle
    have hempty : d.rest = [] := hreads.rest_eq_nil hnil
    simp [Cursor.peek, hempty] at hpeek
  | @cons c m d' b bs hfirst _ ih =>
    obtain ⟨text, hreads⟩ := hfirst.reads
    obtain ⟨blank, hblank, hall⟩ := hfirst.blank
    have hm := hreads.in hfirst.start
    have hd' := hblank.in hm
    have hcover : ¬ (c.offset ≤ i ∧ i < m.offset) := by
      have := hout b List.mem_cons_self
      rw [hfirst.span] at this
      exact this
    obtain hlt | hge := Nat.lt_or_ge d.offset m.offset
    · -- the whole character lies under the entry
      have := hd.char_le hm hpeek hlt
      omega
    · obtain hlt | hbehind := Nat.lt_or_ge d.offset d'.offset
      · exact hall ch (hblank.mem_of_between hm hd hpeek hge hlt)
      · exact ih hbehind fun b hb => hout b (List.mem_cons_of_mem _ hb)

end Block

-- ---------------------------------------------------------------------------
-- Bodies
-- ---------------------------------------------------------------------------

/-- How the body of a resource accounts for its source and for the entries `read` in it, of which no
definition has a comment yet. -/
structure Accounts (source : String) (read body : List Entry) : Prop where
  /-- A byte of the source that no entry covers is a space or a line end. -/
  blank_outside : ∀ before ch after i, source.toList = before ++ ch :: after →
    byteLength before ≤ i → i < byteLength before + ch.utf8Size →
    (∀ e ∈ body, ¬ (e.span.start ≤ i ∧ i < e.span.stop)) → ch = ' ' ∨ ch = '\n'
  lineStart : ∀ e ∈ body, LineStart source.toList e.span.start
  lineEnd : ∀ e ∈ body, LineEnd source.toList e.span.stop
  /-- The body, its comments taken off again, is what was read. -/
  separate : body.flatMap Entry.separate = read
  /-- A note belongs to the definition that starts on the next line, and to no other. -/
  note_iff : ∀ c, .comment .note c ∈ read → ∀ e ∈ body, e.isComment = false →
    (e.note? = some c ↔ e.ownStart = c.span.stop + 1)
  note_start : ∀ e ∈ body, ∀ c, e.note? = some c → e.span.start = c.span.start
  /-- A note that belongs to a definition is no entry. -/
  note_not_mem : ∀ e ∈ body, ∀ c, e.note? = some c → .comment .note c ∉ body
  /-- Any other comment is an entry, once. -/
  comment_once : ∀ level c, .comment level c ∈ read →
    ¬ (level = .note ∧ ∃ e ∈ body, e.note? = some c) →
      ∃! i : Nat, body[i]? = some (Entry.comment level c)

namespace Block

variable {source : String} {c : Cursor} {bs : List Block} {e e' : Entry} {i j : Nat}

theorem Lie.index_unique (h : Lie source c bs) (hi : (attach bs)[i]? = some e)
    (hj : (attach bs)[j]? = some e') (hstart : e.span.start = e'.span.start) : i = j := by
  have hpairwise := List.pairwise_iff_getElem.1 h.pairwise
  obtain ⟨hilt, rfl⟩ := List.getElem?_eq_some_iff.1 hi
  obtain ⟨hjlt, rfl⟩ := List.getElem?_eq_some_iff.1 hj
  obtain hlt | rfl | hlt := Nat.lt_trichotomy i j
  · have := hpairwise i j hilt hjlt hlt
    omega
  · rfl
  · have := hpairwise j i hjlt hilt hlt
    omega

/-- What was read is the entry of a body or the comment of one. -/
theorem Lie.exists_separate (h : Lie source c bs) (he : e ∈ bs.map entry) :
    ∃ e' ∈ attach bs, e ∈ e'.separate := by
  rw [← attach_separate fun _ => h.bare] at he
  exact List.mem_flatMap.1 he

theorem Lie.accounts (h : Lie source c bs) {text : List Char}
    (hreads : (Cursor.ofString source).Reads text c) (hblank : ∀ ch ∈ text, Cursor.isBlank ch) :
    Accounts source (bs.map entry) (attach bs) where
  blank_outside before ch after i hs hle hlt hout := by
    have hd : Cursor.In source.toList ⟨ch :: after, byteLength before⟩ := ⟨before, hs, rfl⟩
    have hc := hreads.in (Cursor.in_ofString source)
    suffices Cursor.isBlank ch by simpa [Cursor.isBlank] using this
    obtain hfront | hfrom := Nat.lt_or_ge (byteLength before) c.offset
    · exact hblank ch (hreads.mem_of_between (Cursor.in_ofString source) hd rfl (Nat.zero_le _) hfront)
    · refine h.blank_of_uncovered hd rfl hfrom ⟨hle, hlt⟩ fun b hb hcover => ?_
      obtain ⟨e, he, hpart⟩ := h.exists_separate (List.mem_map_of_mem hb)
      obtain ⟨hstart, hstop⟩ := (h.settled he).covers _ hpart
      exact hout e he ⟨by omega, by omega⟩
  lineStart e he := (h.settled he).lineStart
  lineEnd e he := (h.settled he).lineEnd
  separate := attach_separate fun _ => h.bare
  note_iff k hk e he hdef := by
    obtain ⟨b, hb, hnote⟩ := List.mem_map.1 hk
    exact ⟨fun hnote => ((h.settled he).note k hnote).1, h.note_of_ownStart he hdef ⟨b, hb, hnote⟩⟩
  note_start e he k hk := ((h.settled he).note k hk).2
  note_not_mem e he k hk hmem := by
    obtain ⟨i, hi⟩ := List.getElem?_of_mem he
    obtain ⟨j, hj⟩ := List.getElem?_of_mem hmem
    obtain rfl := h.index_unique hi hj ((h.settled he).note k hk).2
    obtain rfl := Option.some.inj (hi.symm.trans hj)
    simp [Entry.note?] at hk
  comment_once level k hk hfree := by
    obtain ⟨e, he, hpart⟩ := h.exists_separate hk
    obtain ⟨rfl, hnote⟩ | rfl := Entry.comment_mem_separate hpart
    · exact absurd ⟨rfl, e, he, hnote⟩ hfree
    obtain ⟨i, hi⟩ := List.getElem?_of_mem he
    exact ⟨i, hi, fun j hj => h.index_unique hj hi rfl⟩

end Block

/-- Whatever the source, its last block touches no next one: no note is left without the entry that it
would wait for. -/
theorem Parser.blocks_last {source : String} {blocks : List Block} {d : Cursor}
    (h : Parser.blocks (.ofString source) = .ok (blocks, d)) :
    ∀ b, blocks.getLast? = some b → b.touchesNext = false := by
  obtain ⟨c, hlie, -⟩ := Parser.blocks_lie h
  exact fun b => hlie.last

theorem Parser.blocks_accounts {source : String} {blocks : List Block} {d : Cursor}
    (h : Parser.blocks (.ofString source) = .ok (blocks, d)) :
    Accounts source (blocks.map Block.entry) (Block.attach blocks) := by
  obtain ⟨c, hlie, text, hreads, hblank⟩ := Parser.blocks_lie h
  exact hlie.accounts hreads hblank

/-- A definition that has a comment starts where the comment does. -/
theorem Resource.note_start {source : String} {r : Resource} (h : Resource.parse source = .ok r) :
    ∀ e ∈ r.body, ∀ c, e.note? = some c → e.span.start = c.span.start := by
  obtain ⟨blocks, d, hblocks, rfl⟩ := parse_blocks h
  exact (Parser.blocks_accounts hblocks).note_start

/-- No entry and no comment of a source is lost, doubled or given to the wrong definition, and none is
left waiting for a next entry when the source ends. -/
theorem Resource.parse_accounts {source : String} {r : Resource}
    (h : Resource.parse source = .ok r) :
    ∃ blocks d, Parser.blocks (.ofString source) = .ok (blocks, d) ∧
      (∀ b, blocks.getLast? = some b → b.touchesNext = false) ∧
        Accounts source (blocks.map Block.entry) r.body := by
  obtain ⟨blocks, d, hblocks, rfl⟩ := parse_blocks h
  exact ⟨blocks, d, hblocks, Parser.blocks_last hblocks, Parser.blocks_accounts hblocks⟩

/-- A note with its message, and a note that touches nothing. -/
theorem Resource.parse_accounts_notes :
    ∃ r : Resource, Resource.parse "# n\na = b\n# o\n" = .ok r ∧
      ∃ blocks d, Parser.blocks (.ofString "# n\na = b\n# o\n") = .ok (blocks, d) ∧
        (∀ b, blocks.getLast? = some b → b.touchesNext = false) ∧
          Accounts "# n\na = b\n# o\n" (blocks.map Block.entry) r.body := by
  let value : Pattern := ⟨[.text ⟨"b", ⟨8, 9⟩⟩], ⟨8, 9⟩⟩
  let message : Entry := .message ⟨⟨"a", ⟨4, 5⟩⟩, some value, [], some ⟨"n", ⟨0, 3⟩⟩, ⟨0, 9⟩⟩
  have hparse : Resource.parse "# n\na = b\n# o\n" =
      .ok ⟨[message, .comment .note ⟨"o", ⟨10, 13⟩⟩], ⟨0, 14⟩⟩ := by cbv
  exact ⟨_, hparse, Resource.parse_accounts hparse⟩

end MessageLint
