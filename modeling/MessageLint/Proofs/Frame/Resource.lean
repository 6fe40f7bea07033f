-- SUMMARY: A source behind another one is read as if it stood alone.
import MessageLint.Proofs.Frame.Entry
import MessageLint.Proofs.LineEnds
import MessageLint.Proofs.Attachment

/-!
# Sources in a row

If a source ends a line, a second one can be put behind it: the blocks of the first are read as
before, and where they end the second is read from its start, only further on. The one thing that can
change is whether the last block of the first source touches a next one, which matters for comments.
-/

namespace MessageLint

-- ---------------------------------------------------------------------------
-- Attaching in parts
-- ---------------------------------------------------------------------------

namespace Block

/-- Blocks that attaching cannot tell apart. -/
def Alike (b b' : Block) : Prop :=
  b'.entry = b.entry ∧ (b.entry.isComment → b'.touchesNext = b.touchesNext)

variable {b : Block} {bs bs' more : List Block}

theorem alike_refl (b : Block) : b.Alike b := ⟨rfl, fun _ => rfl⟩

theorem attach_alike (h : List.Forall₂ Alike bs bs') : attach bs' = attach bs := by
  fun_induction attach bs generalizing bs' with
  | case1 => rw [List.forall₂_nil_left_iff.1 h]; rfl
  | case2 c next rest e he ih =>
    obtain ⟨⟨_, _⟩, _, ⟨rfl, htouches⟩, htail, rfl⟩ := List.forall₂_cons_left_iff.1 h
    obtain ⟨next', rest', ⟨hnext, -⟩, hrest, rfl⟩ := List.forall₂_cons_left_iff.1 htail
    have htrue := htouches rfl
    simp only at htrue
    simp only [htrue, attach, hnext, he, ih hrest]
  | case3 c next rest he ih =>
    obtain ⟨⟨_, _⟩, _, ⟨rfl, htouches⟩, htail, rfl⟩ := List.forall₂_cons_left_iff.1 h
    have hattach := ih htail
    obtain ⟨next', rest', ⟨hnext, -⟩, hrest, rfl⟩ := List.forall₂_cons_left_iff.1 htail
    have htrue := htouches rfl
    simp only at htrue
    simp only [htrue, attach, hnext, he, hattach]
  | case4 b rest hnot ih =>
    obtain ⟨b', rest', ⟨hentry, htouches⟩, hrest, rfl⟩ := List.forall₂_cons_left_iff.1 h
    cases hrest with
    | nil => rw [attach_singleton, hentry]; rfl
    | cons hnext hrest =>
      rw [attach_cons, hentry, ih (.cons hnext hrest)]
      intro htrue c hnote
      rw [hentry] at hnote
      rw [htouches (by rw [hnote]; rfl)] at htrue
      obtain ⟨entry, touchesNext⟩ := b
      obtain rfl : entry = .comment .note c := hnote
      obtain rfl : touchesNext = true := htrue
      exact hnot c _ _ rfl rfl

/-- A comment that was read last is the last entry. -/
theorem attach_getLast? {level : CommentLevel} {c : Comment} (h : bs.getLast? = some b)
    (hb : b.entry = .comment level c) : (attach bs).getLast? = some (.comment level c) := by
  fun_induction attach bs with
  | case1 => simp at h
  | case2 k next rest e he ih =>
    cases rest with
    | nil =>
      obtain rfl : next = b := by simpa using h
      simp [hb, Entry.withComment] at he
    | cons b' rest =>
      rw [List.getLast?_cons_cons, List.getLast?_cons_cons] at h
      rw [List.getLast?_cons, ih h]
      rfl
  | case3 k next rest he ih =>
    rw [List.getLast?_cons_cons] at h
    rw [List.getLast?_cons, ih h]
    rfl
  | case4 b' rest _ ih =>
    cases rest with
    | nil =>
      obtain rfl : b' = b := by simpa using h
      simp [attach, hb]
    | cons next rest =>
      rw [List.getLast?_cons_cons] at h
      rw [List.getLast?_cons, ih h]
      rfl

end Block

-- ---------------------------------------------------------------------------
-- Blocks inside frames
-- ---------------------------------------------------------------------------

namespace Parser

variable {w : Frame} {c d : Cursor} {source : String}

/-- Only a comment can read on into the text behind. -/
theorem entry_agree {H : List Char → Prop} (hH : ∀ rest, H rest → Lined rest)
    (hcomment : c.peek = some '#' →
      w.Agree Lined H (·.respan w.move) c (comment c) (comment (c.inside w))) :
    w.Agree Lined H (·.respan w.move) c (entry c) (entry (c.inside w)) := by
  rw [entry, peek_bind, peek_bind]
  apply Frame.Agree.congr
  · intro hc
    rw [Cursor.peek_inside (hc.imp_right Lined.ne_nil)]
  · generalize c.peek = first at hcomment ⊢
    split
    · exact hcomment rfl
    · exact (term_carries c).mono (fun _ => Inked.lined) hH
    · refine Carries.agree (.ite (fun _ => ?_) fun _ => .fail _) c
      exact message_carries.mono (fun _ => Inked.lined) hH
    · exact Carries.fail _ c

theorem block_carries (htail : w.tail = []) :
    block.Carries w Lined Lined (·.respan w.move) block := by
  have hentry : entry.Carries w Lined Lined (·.respan w.move) entry := fun c =>
    entry_agree (fun _ h => h) fun _ => comment_carries.of_tail htail c
  refine hentry.bind fun e => (Carries.lineEnd Lined.guard).bind fun _ =>
    (Carries.skipBlankLines Lined.guard).bind fun lines => Carries.place_bind fun start => .pure _ ?_
  rw [Cursor.atEnd_inside (.inl htail)]
  rfl

/-- With nothing behind the source, blocks are read as ever. -/
theorem gather_block_carries (htail : w.tail = []) :
    Parser.Carries w Lined Lined (List.map (·.respan w.move))
      (gather (fun _ c => !c.atEnd) (fun _ => block) [])
      (gather (fun _ c => !c.atEnd) (fun _ => block) []) :=
  .gather (fun _ c _ => by rw [Cursor.atEnd_inside (.inl htail)]) (fun _ => block_carries htail) []

theorem isComment_of_peek {e : Entry} (hpeek : c.peek = some '#') (h : entry c = .ok (e, d)) :
    e.isComment := by
  obtain ⟨-, h⟩ | ⟨hdash, -⟩ | h := entry_ok h
  · obtain ⟨_, _, _, _, -, -, -, rfl⟩ := comment_ok h
    rfl
  · simp [hpeek] at hdash
  · obtain ⟨_, _, _, _, _, hid, -⟩ := message_ok h
    obtain ⟨⟨first, hfirst, halpha⟩, -⟩ := identifier_ok hid
    obtain rfl : '#' = first := by simpa [hpeek] using hfirst
    exact absurd halpha (by decide)

/-- In front of more text an entry is read as before, if it is not a comment on the last line. -/
theorem entry_inside {e : Entry} (hw : w.before = 0) (hd : EndsLine d.rest)
    (h : entry c = .ok (e, d)) (hcomment : e.isComment → d.rest ≠ ['\n']) :
    entry (c.inside w) = .ok (e, d.inside w) := by
  have hsame : e.respan w.move = e := by
    rw [show w.move = id from funext fun s => by simp [Frame.move, Span.shift, hw],
      Entry.respan_id]
  by_cases hmarker : c.peek = some '#'
  · have hagree := entry_agree (w := w) (H := Spaced) (fun _ => Spaced.guard.lined)
      fun _ => (comment_carries c).mono (fun _ => Spaced.guard.lined) fun _ h => h
    rw [h] at hagree
    simpa only [hsame] using (hagree (.inr ⟨hd, hcomment (isComment_of_peek hmarker h)⟩)).2
  · have hagree := entry_agree (w := w) (fun _ h => h) fun h => absurd h hmarker
    rw [h] at hagree
    simpa only [hsame] using (hagree (.inr (.inr hd))).2

/-- In front of more text a block is read as before, as far as attaching is concerned. -/
theorem block_alike {b : Block} (hw : w.before = 0) (hin : c.In source.toList)
    (hc : EndsLine c.rest) (h : block c = .ok (b, d))
    (hlast : d.rest = [] → b.entry.isComment → b.entry.span.stop + 1 ≠ source.utf8ByteSize) :
    ∃ b', block (c.inside w) = .ok (b', d.inside w) ∧ b.Alike b' := by
  obtain ⟨m, hentry, hend, rfl, htouches⟩ := block_ok h
  have hm : EndsLine m.rest := entry_ends hin hc hentry
  have hpeek : m.peek = some '\n' := hend.resolve_left hm.ne_nil
  obtain ⟨before, hsource, hoffset⟩ := (entry_fills hin hentry).stop
  obtain ⟨blank, hblank⟩ := m.next.skipBlankLines_ends
  have hnext := Cursor.reads_next_of_peek hpeek
  have hmore : b.entry.isComment → m.rest ≠ ['\n'] := by
    intro hcomment heq
    have hnil : m.next.rest = [] := by simpa [heq] using hnext.rest
    refine hlast (hblank.reads.rest_eq_nil hnil) hcomment ?_
    rw [(entry_bare hentry).2, ← byteLength_toList, hsource, heq, byteLength_append, ← hoffset]
    rfl
  have hentry' := entry_inside hw hm hentry hmore
  have hlines : m.next.rest = [] ∨ EndsLine m.next.rest :=
    (em _).imp_right fun hne => hm.of_reads hnext hne
  refine ⟨⟨b.entry, m.next.skipBlankLines.1 = 0 && !(m.next.skipBlankLines.2.inside w).atEnd⟩,
    ?_, rfl, fun hcomment => ?_⟩
  · refine bind_eq_ok.2 ⟨_, _, hentry', lineEnd_bind_ok.2 ⟨.inr (Cursor.peek_inside_of_some hpeek), ?_⟩⟩
    rw [Cursor.next_inside (.inr hm.ne_nil), skipBlankLines_bind,
      Cursor.skipBlankLines_inside (.inr (hlines.symm.imp_left .inr))]
    rfl
  · rw [Bool.eq_iff_iff, htouches]
    by_cases hrest : m.next.skipBlankLines.2.rest = []
    · -- only blank lines are left, and at least one: neither block touches another
      have hne : m.next.rest ≠ [] := fun hnil => hmore hcomment (by simpa [hnil] using hnext.rest)
      have hmem : '\n' ∈ m.next.rest := List.mem_of_getLast? (hlines.resolve_left hne)
      rw [hblank.reads.rest, hrest, List.append_nil] at hmem
      have hcount : m.next.skipBlankLines.1 ≠ 0 := by
        rw [hblank.count]
        exact (List.count_pos_iff.2 hmem).ne'
      simp [hcount]
    · rw [Cursor.atEnd_inside (.inr hrest)]
      simp [Cursor.atEnd]

/-- No comment ends right in front of the last line end of the source. -/
def SetOff (source : String) (bs : List Block) : Prop :=
  ∀ b, bs.getLast? = some b → b.entry.isComment → b.entry.span.stop + 1 ≠ source.utf8ByteSize

/-- The blocks `bs` are those from `c` to the end of the source. Inside the frame they are read as
before, and what follows is read from where they end. -/
structure Resumes (source : String) (w : Frame) (c : Cursor) (bs : List Block) : Prop where
  eq_nil_iff : bs = [] ↔ c.rest = []
  run : SetOff source bs → ∃ bs', List.Forall₂ Block.Alike bs bs' ∧
    ∀ seen, gather (fun _ c => !c.atEnd) (fun _ => block) seen (c.inside w) =
      gather (fun _ c => !c.atEnd) (fun _ => block) (bs'.reverse ++ seen)
        ⟨w.tail, source.utf8ByteSize⟩

theorem resumes_nil (hw : w.before = 0) (hin : c.In source.toList) (hc : c.rest = []) :
    Resumes source w c [] := by
  obtain ⟨before, hsource, hoffset⟩ := hin
  have hinside : c.inside w = ⟨w.tail, source.utf8ByteSize⟩ := by
    simp [Cursor.inside, hc, hw, hoffset, ← byteLength_toList, hsource]
  exact ⟨by simp [hc], fun _ => ⟨[], .nil, fun seen => by rw [hinside]; rfl⟩⟩

theorem resumes_cons {b : Block} {bs : List Block} (hw : w.before = 0) (hin : c.In source.toList)
    (hc : EndsLine c.rest) (h : block c = .ok (b, d)) (hbs : Resumes source w d bs) :
    Resumes source w c (b :: bs) := by
  refine ⟨by simp [hc.ne_nil], fun hoff => ?_⟩
  obtain ⟨b', hb', halike⟩ := block_alike hw hin hc h fun hd => by
    obtain rfl := hbs.eq_nil_iff.2 hd
    exact hoff b rfl
  obtain ⟨bs', halikes, hrun⟩ := hbs.run fun k hk => by
    cases bs with
    | nil => simp at hk
    | cons next bs => exact hoff k (by rwa [List.getLast?_cons_cons])
  refine ⟨b' :: bs', .cons halike halikes, fun seen => ?_⟩
  have hmore : (!(c.inside w).atEnd) = true := by simp [Cursor.atEnd, hc.ne_nil]
  have hlt : (d.inside w).rest.length < (c.inside w).rest.length := by
    simpa using block_forward hin h
  rw [gather, if_pos hmore, hb']
  simp only [if_pos hlt]
  rw [hrun (b' :: seen), List.reverse_cons, List.append_assoc, List.singleton_append]

/-- The blocks of a source that ends a line, in front of more text. -/
theorem gather_resumes {seen as : List Block} (hw : w.before = 0) (hin : c.In source.toList)
    (hc : c.rest = [] ∨ EndsLine c.rest)
    (h : gather (fun _ c => !c.atEnd) (fun _ => block) seen c = .ok (as, d)) :
    ∃ bs, as = seen.reverse ++ bs ∧ Resumes source w c bs :=
  gather_rounds (I := fun c => c.In source.toList ∧ (c.rest = [] ∨ EndsLine c.rest))
    (fun c ⟨hin, _⟩ hend => resumes_nil hw hin (by simpa [Cursor.atEnd] using hend))
    (fun c b d ⟨hin, hc⟩ hmore hrun => by
      have hc : EndsLine c.rest := hc.resolve_left (by simpa [Cursor.atEnd] using hmore)
      have hfilled := block_fills hin hrun
      obtain ⟨text, hreads⟩ := hfilled.reads
      exact ⟨block_forward hin hrun, ⟨hfilled.stop, (em _).imp_right (hc.of_reads hreads)⟩,
        fun _ => resumes_cons hw hin hc hrun⟩)
    ⟨hin, hc⟩ h

end Parser

-- ---------------------------------------------------------------------------
-- Resources in a row
-- ---------------------------------------------------------------------------

section Append

variable {a b : String} {bs bs' : List Block}

/-- The last entry of the body tells whether a comment ends in front of the last line end. -/
theorem Parser.setOff_of_body
    (h : ∀ level c, (Block.attach bs).getLast? = some (.comment level c) →
      c.span.stop + 1 ≠ a.utf8ByteSize) : Parser.SetOff a bs := by
  intro b hb hcomment
  obtain ⟨entry, touchesNext⟩ := b
  cases entry with
  | comment level c => exact h level c (Block.attach_getLast? hb rfl)
  | message | term => simp [Entry.isComment] at hcomment

/-- Skipping blank lines does not take a last line end away. -/
theorem Cursor.endsLine_skipBlankLines {c : Cursor} (h : c.rest = [] ∨ EndsLine c.rest) :
    c.skipBlankLines.2.rest = [] ∨ EndsLine c.skipBlankLines.2.rest := by
  obtain ⟨blank, hblank⟩ := c.skipBlankLines_ends
  refine (em _).imp_right fun hne => (h.resolve_left fun hnil => hne ?_).of_reads hblank.reads hne
  exact hblank.reads.rest_eq_nil hnil

theorem Parser.blocks_of_head {ch : Char} (hhead : b.toList.head? = some ch)
    (hch : Cursor.isBlank ch = false) : Parser.blocks (.ofString b) =
      gather (fun _ c => !c.atEnd) (fun _ => block) [] (.ofString b) := by
  rw [Parser.blocks, skipBlankLines_bind,
    Cursor.skipBlankLines_of_peek (c := .ofString b) hhead hch]

/-- The blocks of a source behind another one: those of the first, and behind them those of the
second, moved. -/
theorem Parser.blocks_append {d : Cursor} {ch : Char} (ha : a = "" ∨ EndsLine a.toList)
    (hblocks : Parser.blocks (.ofString a) = .ok (bs, d)) (hoff : Parser.SetOff a bs)
    (hhead : b.toList.head? = some ch) (hch : ch.isAlpha ∨ ch = '-' ∨ ch = '#') :
    ∃ bs', List.Forall₂ Block.Alike bs bs' ∧
      match Parser.blocks (.ofString b) with
      | .ok (as, _) => ∃ e, Parser.blocks (.ofString (a ++ b)) =
          .ok (bs' ++ as.map (·.respan (Span.shift a.utf8ByteSize)), e)
      | .error e => Parser.blocks (.ofString (a ++ b)) =
          .error ⟨e.cause, e.span.shift a.utf8ByteSize⟩ := by
  let behind : Frame := ⟨0, b.toList, fun k hk => by rwa [Option.some.inj (hhead.symm.trans hk)] at hch⟩
  let moved : Frame := ⟨a.utf8ByteSize, [], by simp⟩
  have hin := Cursor.in_ofString a
  obtain ⟨blank, hblank⟩ := (Cursor.ofString a).skipBlankLines_ends
  have hlined : (Cursor.ofString a).rest = [] ∨ EndsLine (Cursor.ofString a).rest :=
    ha.imp_left fun h => by rw [h]; rfl
  rw [Parser.blocks, skipBlankLines_bind] at hblocks
  obtain ⟨_, rfl, hresumes⟩ := gather_resumes (w := behind) rfl (hblank.reads.in hin)
    (Cursor.endsLine_skipBlankLines hlined) hblocks
  obtain ⟨bs', halike, hrun⟩ := hresumes.run hoff
  refine ⟨bs', halike, ?_⟩
  have hboth : Parser.blocks (.ofString (a ++ b)) =
      (gather (fun _ c => !c.atEnd) (fun _ => block) [] ((Cursor.ofString b).inside moved)).map
        fun r => (bs'.reverse.reverse ++ r.1, r.2) := by
    have hwhole : Cursor.ofString (a ++ b) = (Cursor.ofString a).inside behind := by
      simp [Cursor.ofString, Cursor.inside, behind]
    have hmoved : (⟨b.toList, a.utf8ByteSize⟩ : Cursor) = (Cursor.ofString b).inside moved := by
      simp [Cursor.ofString, Cursor.inside, moved]
    rw [Parser.blocks, skipBlankLines_bind, hwhole,
      Cursor.skipBlankLines_inside (.inr (hlined.symm.imp_left .inr)), hrun [], List.append_nil,
      ← hmoved]
    exact gather_seen
  have hagree := gather_block_carries (w := moved) rfl (Cursor.ofString b)
  rw [hboth, Parser.blocks_of_head hhead (behind.tail_head_not_blank hhead)]
  cases hb : gather (fun _ c => !c.atEnd) (fun _ => block) [] (Cursor.ofString b) with
  | ok r =>
    rw [hb] at hagree
    rw [(hagree (.inl rfl)).2, List.reverse_reverse]
    exact ⟨_, rfl⟩
  | error e =>
    rw [hb] at hagree
    rw [hagree rfl]
    rfl

/-- A source that ends a line, with another one behind it: what was read of the second is added to
what was read of the first, every span moved. Only a comment in front of the last line end could
reach for the second source. -/
theorem Resource.parse_append {r : Resource} (ha : a = "" ∨ a.toList.getLast? = some '\n')
    (hr : Resource.parse a = .ok r)
    (hlast : ∀ level c, r.body.getLast? = some (.comment level c) →
      c.span.stop + 1 ≠ a.utf8ByteSize)
    (hb : ∃ ch, b.toList.head? = some ch ∧ (ch.isAlpha ∨ ch = '-' ∨ ch = '#')) :
    (∀ s, Resource.parse b = .ok s → ∃ t, Resource.parse (a ++ b) = .ok t ∧
      t.body = r.body ++ s.body.map (·.respan (Span.shift a.utf8ByteSize))) ∧
    ∀ e, Resource.parse b = .error e →
      Resource.parse (a ++ b) = .error ⟨e.cause, e.span.shift a.utf8ByteSize⟩ := by
  obtain ⟨ch, hhead, hch⟩ := hb
  obtain ⟨bs, d, hblocks, rfl⟩ := Resource.parse_blocks hr
  obtain ⟨bs', halike, happend⟩ :=
    Parser.blocks_append ha hblocks (Parser.setOff_of_body hlast) hhead hch
  have hattach : ∀ as, Block.attach (bs' ++ as) = Block.attach bs ++ Block.attach as := by
    intro as
    have hsame := List.forall₂_same.2 fun (b : Block) (_ : b ∈ as) => b.alike_refl
    rw [Block.attach_alike (List.rel_append halike hsame),
      Block.attach_append (Parser.blocks_last hblocks)]
  unfold Resource.parse
  cases hsecond : Parser.blocks (.ofString b) with
  | ok as =>
    rw [hsecond] at happend
    obtain ⟨e, happend⟩ := happend
    rw [happend]
    simp only [Except.ok.injEq, reduceCtorEq, false_implies, implies_true, and_true]
    rintro s rfl
    exact ⟨_, rfl, by rw [hattach, Block.attach_respan fun _ _ => rfl]⟩
  | error e =>
    rw [hsecond] at happend
    rw [happend]
    simp

/-- A comment behind a message. -/
theorem Resource.parse_append_comment :
    ∃ r s t : Resource, Resource.parse "a = b\n" = .ok r ∧ Resource.parse "# c\n" = .ok s ∧
      Resource.parse ("a = b\n" ++ "# c\n") = .ok t ∧
      t.body = r.body ++ s.body.map (·.respan (Span.shift "a = b\n".utf8ByteSize)) := by
  let value : Pattern := ⟨[.text ⟨"b", ⟨4, 5⟩⟩], ⟨4, 5⟩⟩
  let message : Entry := .message ⟨⟨"a", ⟨0, 1⟩⟩, some value, [], none, ⟨0, 5⟩⟩
  have hmessage : Resource.parse "a = b\n" = .ok ⟨[message], ⟨0, 6⟩⟩ := by cbv
  have hcomment : Resource.parse "# c\n" = .ok ⟨[.comment .note ⟨"c", ⟨0, 3⟩⟩], ⟨0, 4⟩⟩ := by cbv
  obtain ⟨t, ht, hbody⟩ := (Resource.parse_append (.inr (by decide)) hmessage
    (by simp [message]) ⟨'#', rfl, .inr (.inr rfl)⟩).1 _ hcomment
  exact ⟨_, _, t, hmessage, hcomment, ht, hbody⟩

end Append

end MessageLint
