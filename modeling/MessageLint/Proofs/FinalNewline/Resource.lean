-- SUMMARY: When a line end behind a source changes what is read from it.
import MessageLint.Proofs.Frame.Resource
import MessageLint.Proofs.FinalNewline.Entry

/-!
# Sources in front of a final line end

Where the last entry of a source has been read, only blanks can be left, and a line end among them
changes nothing. The one exception are bare markers at the very end of the source, right below a
comment of their level: they are a comment of their own there, and the last line of the comment above
them when a line end follows. No other two comments of one level stand on neighbouring lines
(`Resource.comment_lines_join`), so this is seen on what was read.
-/

namespace MessageLint

/-- The line that starts at the cursor is not blank. -/
def Cursor.atWrittenLine (c : Cursor) : Bool :=
  c.skipBlankLines.1 = 0 && !c.skipBlankLines.2.atEnd

/-- The same place in front of something that is no blank, or the end of both sources. -/
def Cursor.Twin (c c' : Cursor) : Prop := Inked c.rest ∧ c' = c.ended ∨ c.rest = [] ∧ c'.rest = []

theorem Cursor.Twin.lt {c d d' : Cursor} (h : d.Twin d')
    (hlt : d.rest.length < c.rest.length) : d'.rest.length < c.ended.rest.length := by
  obtain ⟨-, rfl⟩ | ⟨-, hnil⟩ := h
  · simpa using hlt
  · simp [hnil]

namespace Parser

variable {source : String} {c c' d e m : Cursor} {b b' : Block} {level : CommentLevel}

-- ---------------------------------------------------------------------------
-- Blocks
-- ---------------------------------------------------------------------------

/-- Runs that give the same answer and end at twin places, or both fail. -/
inductive Paired : Except SyntaxError (α × Cursor) → Except SyntaxError (α × Cursor) → Prop
  | ok (a : α) {d d' : Cursor} (h : d.Twin d') : Paired (.ok (a, d)) (.ok (a, d'))
  | error (e e' : SyntaxError) : Paired (.error e) (.error e')

/-- Blank lines end at twin places. -/
theorem skipBlankLines_twin (c : Cursor) : c.skipBlankLines.2.Twin c.ended.skipBlankLines.2 := by
  by_cases h : Inked c.rest
  · exact .inl ⟨Cursor.inked_skipBlankLines h, by rw [Cursor.skipBlankLines_ended h]⟩
  · exact .inr ⟨Cursor.skipBlankLines_rest h, Cursor.skipBlankLines_rest (Cursor.not_inked_ended h)⟩

theorem atWrittenLine_ended (c : Cursor) : c.ended.atWrittenLine = c.atWrittenLine := by
  unfold Cursor.atWrittenLine
  by_cases h : Inked c.rest
  · have hne : c.skipBlankLines.2.atEnd = false :=
      List.isEmpty_eq_false_iff.2 (Cursor.inked_skipBlankLines h).lined.ne_nil
    rw [Cursor.skipBlankLines_ended h, Cursor.atEnd_ended, hne]
  · have hend : ∀ c : Cursor, ¬Inked c.rest → c.skipBlankLines.2.atEnd = true := fun c hc =>
      List.isEmpty_iff.2 (Cursor.skipBlankLines_rest hc)
    rw [hend c h, hend _ (Cursor.not_inked_ended h)]
    simp

/-- The block of an entry that was read up to `m`. -/
theorem block_of_entry {entry' : Entry} (h : entry c = .ok (entry', m)) :
    block c = if m.rest = [] ∨ m.peek = some '\n' then
      .ok (⟨entry', m.next.atWrittenLine⟩, m.next.skipBlankLines.2)
    else .error ⟨.expectedToken '\n', m.here⟩ := by
  change Parser.bind entry _ c = _
  rw [Parser.bind, h]
  change Parser.bind lineEnd _ m = _
  rw [Parser.bind, lineEnd]
  have hend : (m.atEnd || decide (m.peek = some '\n')) = true ↔
      m.rest = [] ∨ m.peek = some '\n' := by
    simp [Cursor.atEnd]
  by_cases hm : m.rest = [] ∨ m.peek = some '\n'
  · rw [if_pos (hend.2 hm), if_pos hm]
    rfl
  · rw [if_neg (mt hend.1 hm), if_neg hm]

theorem block_of_error {fault : SyntaxError} (h : entry c = .error fault) :
    block c = .error fault := by
  change Parser.bind entry _ c = _
  rw [Parser.bind, h]

theorem atLineEnd_ended (m : Cursor) :
    (m.ended.rest = [] ∨ m.ended.peek = some '\n') ↔ (m.rest = [] ∨ m.peek = some '\n') := by
  rw [Cursor.peek_ended]
  cases hrest : m.rest <;> simp [Cursor.peek, hrest]

/-- Behind the line end of an entry. -/
theorem next_twin (m : Cursor) : m.next.skipBlankLines.2.Twin m.ended.next.skipBlankLines.2 ∧
    m.ended.next.atWrittenLine = m.next.atWrittenLine := by
  by_cases hm : m.rest = []
  · obtain ⟨rest, offset⟩ := m
    obtain rfl : rest = [] := hm
    exact ⟨.inr ⟨rfl, rfl⟩, rfl⟩
  · rw [Cursor.next_ended hm]
    exact ⟨skipBlankLines_twin _, atWrittenLine_ended _⟩

theorem block_paired (h : Same (entry c) (entry c.ended)) : Paired (block c) (block c.ended) := by
  cases hrun : entry c with
  | error fault =>
    generalize hrun' : entry c.ended = r' at h
    rw [hrun] at h
    obtain ⟨⟩ | ⟨_, fault'⟩ := h
    rw [block_of_error hrun, block_of_error hrun']
    exact .error _ _
  | ok r =>
    obtain ⟨entry', m⟩ := r
    generalize hrun' : entry c.ended = r' at h
    rw [hrun] at h
    obtain ⟨⟩ | ⟨⟩ := h
    rw [block_of_entry hrun, block_of_entry hrun', (next_twin m).2]
    simp only [atLineEnd_ended]
    split
    · exact .ok _ (next_twin m).1
    · exact .error _ _

theorem entry_of_marker (h : c.peek = some '#') : entry c = comment c := by
  rw [entry, peek_bind, h]
  rfl

/-- Bare markers at the end of the source are a comment without text. -/
theorem block_markers (h : d.rest = List.replicate level.markers '#') :
    block d = .ok (⟨.comment level ⟨"", ⟨d.offset, d.offset + level.markers⟩⟩, false⟩,
      ⟨[], d.offset + level.markers⟩) := by
  obtain ⟨rest, offset⟩ := d
  obtain rfl : rest = List.replicate level.markers '#' := h
  have hpeek : Cursor.peek ⟨List.replicate level.markers '#', offset⟩ = some '#' := by
    cases level <;> rfl
  have hlevel : CommentLevel.ofLine (List.replicate level.markers '#') = level := by
    cases level <;> rfl
  have hfirst : commentLine level ⟨List.replicate level.markers '#', offset⟩ =
      .ok ("", ⟨[], offset + level.markers⟩) := by
    cases level <;> rfl
  have hlines : commentLines level [""] ⟨[], offset + level.markers⟩ =
      .ok ([""], ⟨[], offset + level.markers⟩) := by
    rw [commentLines, gather, if_neg (by simp [Cursor.continuesComment])]
    rfl
  have hentry : entry ⟨List.replicate level.markers '#', offset⟩ =
      .ok (.comment level ⟨"", ⟨offset, offset + level.markers⟩⟩, ⟨[], offset + level.markers⟩) := by
    rw [entry_of_marker hpeek, comment, place_bind, hlevel]
    exact bind_eq_ok.2 ⟨_, _, hfirst, bind_eq_ok.2 ⟨_, _, hlines, rfl⟩⟩
  rw [block_of_entry hentry, if_pos (.inl rfl)]
  rfl

/-- A block is read alike with and without the line end, or it is a comment that has the markers at
the end of the source as its last line. -/
theorem block_paired_or_joined (hc : c.rest ≠ []) : Paired (block c) (block c.ended) ∨
    ∃ level k d end', d.rest = List.replicate level.markers '#' ∧ d.offset = k.span.stop + 1 ∧
      block c = .ok (⟨.comment level k, true⟩, d) ∧
      block c.ended = .ok (⟨.comment level
        ⟨k.content ++ "\n", ⟨k.span.start, d.offset + level.markers⟩⟩, false⟩, ⟨[], end'⟩) := by
  by_cases hpeek : c.peek = some '#'
  · obtain hsame | ⟨content, d, hd, hrun, hrun'⟩ := comment_same_or_extends hpeek
    · exact .inl (block_paired (entry_same hc fun _ => hsame))
    · generalize CommentLevel.ofLine c.rest = level at hd hrun hrun'
      have hdpeek : d.peek = some '\n' := by simp [Cursor.peek, hd.rest_eq]
      have hnext := Cursor.reads_next_of_peek hdpeek
      have hrest : d.next.rest = List.replicate level.markers '#' := by
        simp [Cursor.next, hd.rest_eq]
      have hmarker : d.next.peek = some '#' := by
        rw [Cursor.peek, hrest]
        cases level <;> rfl
      have hskip : d.next.skipBlankLines = (0, d.next) := Cursor.skipBlankLines_of_peek hmarker rfl
      have hwritten : d.next.atWrittenLine = true := by
        rw [Cursor.atWrittenLine, hskip, Cursor.atEnd, hrest]
        cases level <;> rfl
      have hpeek' : c.ended.peek = some '#' := by rw [Cursor.peek_ended_of_ne hc, hpeek]
      rw [← entry_of_marker hpeek] at hrun
      rw [← entry_of_marker hpeek', hd.pastMarkers] at hrun'
      refine .inr ⟨level, ⟨content, c.spanTo d⟩, d.next, d.offset + 1 + level.markers + 1, hrest,
        hnext.offset, ?_, ?_⟩
      · rw [block_of_entry hrun, if_pos (.inr hdpeek), hskip, hwritten]
      · rw [block_of_entry hrun', if_pos (.inr rfl), hnext.offset]
        rfl
  · exact .inl (block_paired (entry_same hc fun h => absurd h hpeek))

-- ---------------------------------------------------------------------------
-- All blocks
-- ---------------------------------------------------------------------------

/-- The blocks from a place on, behind those that were read before. -/
def blocksFrom (seen : List Block) : Parser (List Block) :=
  gather (fun _ c => !c.atEnd) (fun _ => block) seen

theorem blocksFrom_nil {seen : List Block} (hc : c.rest = []) :
    blocksFrom seen c = .ok (seen.reverse, c) := by
  rw [blocksFrom, gather, if_neg (by simp [Cursor.atEnd, hc])]

theorem blocksFrom_error {seen : List Block} {fault : SyntaxError} (hc : c.rest ≠ [])
    (h : block c = .error fault) : blocksFrom seen c = .error fault := by
  rw [blocksFrom, gather, if_pos (by simpa [Cursor.atEnd] using hc), h]

theorem blocksFrom_cons {seen : List Block} (h : block c = .ok (b, d))
    (hlt : d.rest.length < c.rest.length) : blocksFrom seen c = blocksFrom (b :: seen) d := by
  have hc : c.rest ≠ [] := by
    rintro hnil
    simp [hnil] at hlt
  rw [blocksFrom, gather, if_pos (by simpa [Cursor.atEnd] using hc), h]
  simp only [if_pos hlt]
  rfl

/-- The blocks that the runs `r` and `r'` read are the same, except that the last comment that `r'`
reads can be two that `r` reads. -/
inductive Finish : Except SyntaxError (List Block × Cursor) →
    Except SyntaxError (List Block × Cursor) → Prop
  | error (e e' : SyntaxError) : Finish (.error e) (.error e')
  | same (bs : List Block) (d d' : Cursor) : Finish (.ok (bs, d)) (.ok (bs, d'))
  | joined (bs : List Block) (level : CommentLevel) (k k' : Comment) (d d' : Cursor)
      (h : k'.span.start = k.span.stop + 1) :
      Finish (.ok (bs ++ [⟨.comment level k, true⟩, ⟨.comment level k', false⟩], d))
        (.ok (bs ++ [⟨.comment level ⟨k.content ++ "\n", ⟨k.span.start, k'.span.stop⟩⟩, false⟩], d'))

theorem blocksFrom_finish (hc : c.In source.toList) (h : c.Twin c') (seen : List Block) :
    Finish (blocksFrom seen c) (blocksFrom seen c') := by
  induction hsize : c.rest.length using Nat.strongRecOn generalizing c c' seen with
  | _ size ih =>
    obtain ⟨hinked, rfl⟩ | ⟨hnil, hnil'⟩ := h
    · have hne := hinked.lined.ne_nil
      obtain hpaired | ⟨level, k, d, end', hrest, hoffset, hrun, hrun'⟩ :=
        block_paired_or_joined hne
      · generalize hrun : block c = r at hpaired
        generalize hrun' : block c.ended = r' at hpaired
        cases hpaired with
        | error e e' =>
          rw [blocksFrom_error hne hrun, blocksFrom_error (by simp) hrun']
          exact .error e e'
        | @ok b d d' htwin =>
          have hlt := block_forward hc hrun
          rw [blocksFrom_cons hrun hlt, blocksFrom_cons hrun' (htwin.lt hlt)]
          obtain ⟨text, hreads⟩ := (block_fills hc hrun).reads
          exact ih _ (hsize ▸ hlt) (hreads.in hc) htwin _ rfl
      -- one more block without the line end, and then both sources are read
      · have hlt := block_forward hc hrun
        have hmarkers := block_markers hrest
        have hpos : 0 < d.rest.length := by
          rw [hrest]
          cases level <;> decide
        rw [blocksFrom_cons hrun hlt, blocksFrom_cons hmarkers hpos, blocksFrom_nil rfl,
          blocksFrom_cons hrun' (by simp), blocksFrom_nil rfl]
        simpa using Finish.joined seen.reverse level k ⟨"", ⟨d.offset, d.offset + level.markers⟩⟩
          ⟨[], d.offset + level.markers⟩ ⟨[], end'⟩ hoffset
    · rw [blocksFrom_nil hnil, blocksFrom_nil hnil']
      exact .same seen.reverse c c'

-- ---------------------------------------------------------------------------
-- Comments on neighbouring lines
-- ---------------------------------------------------------------------------

/-- If a comment stands right below one of its level, it is bare markers at the end of the source. -/
def Apart (source : String) (b b' : Block) : Prop :=
  ∀ level k k', b.touchesNext → b.entry = .comment level k → b'.entry = .comment level k' →
    k'.content = "" ∧ k'.span.stop = source.utf8ByteSize

/-- Only a marker starts a comment. -/
theorem comment_of_entry {k : Comment} (h : entry c = .ok (.comment level k, d)) :
    c.peek = some '#' ∧ comment c = .ok (.comment level k, d) := by
  obtain h | ⟨-, h⟩ | h := entry_ok h
  · exact h
  · obtain ⟨_, _, _, _, _, -, -, -, -, heq⟩ := term_ok h
    cases heq
  · obtain ⟨_, _, _, _, _, -, -, -, -, -, heq⟩ := message_ok h
    cases heq

theorem nextCommentLine_forward {line : String} (hmore : c.continuesComment level)
    (h : nextCommentLine level c = .ok (line, d)) : d.rest.length < c.rest.length := by
  obtain ⟨hpeek, hmarkers⟩ := Cursor.continuesComment_eq_true hmore
  obtain ⟨written, hreads, -⟩ := commentLine_writes hmarkers h
  have hnext := Cursor.reads_next_of_peek hpeek
  exact Nat.lt_of_le_of_lt hreads.length_le
    (hnext.length_lt (by rw [hnext.offset]; exact Nat.lt_add_of_pos_right (by decide)))

/-- A comment starts with the markers of its level and a blank or the end of the source behind them,
and goes on as long as it can. -/
theorem comment_stops {k : Comment} (h : comment c = .ok (.comment level k, d))
    (hpeek : c.peek = some '#') : ¬d.continuesComment level ∧
      ∃ tail, c.rest = List.replicate level.markers '#' ++ tail ∧
        ∀ ch r, tail = ch :: r → Cursor.isBlank ch := by
  obtain ⟨level', first, m, lines, hlevel, hfirst, hlines, heq⟩ := comment_ok h
  obtain ⟨rfl, -⟩ := Entry.comment.inj heq
  have hmarkers : List.replicate level.markers '#' <+: c.rest := by
    rw [hlevel]
    exact CommentLevel.markers_prefix hpeek
  have hstops := gather_stops (I := fun _ => True)
    (fun _ _ _ _ _ hmore hrun => ⟨nextCommentLine_forward hmore hrun, trivial⟩) trivial hlines
  refine ⟨by simpa using hstops, (c.advance level.markers).rest, ?_, fun ch r htail => ?_⟩
  · simpa using (Cursor.reads_advance_of_prefix hmarkers).rest
  · have hhead : (c.advance level.markers).peek = some ch := by simp [Cursor.peek, htail]
    obtain ⟨-, rfl, hnil | hnewline⟩ | ⟨hspace, -⟩ := commentLine_ok hfirst
    · cases htail.symm.trans hnil
    · obtain rfl := Option.some.inj (hhead.symm.trans hnewline)
      rfl
    · obtain rfl := Option.some.inj (hhead.symm.trans hspace)
      rfl

/-- No blank line was skipped between an entry and the next line. -/
theorem next_line_of_count (hend : m.rest = [] ∨ m.peek = some '\n')
    (hcount : m.next.skipBlankLines.1 = 0) (hne : m.next.skipBlankLines.2.rest ≠ []) :
    m.rest = '\n' :: m.next.skipBlankLines.2.rest := by
  obtain ⟨text, hblank⟩ := m.next.skipBlankLines_ends
  obtain rfl | hlast := (hblank.stop.resolve_left hne).1
  · have hpeek : m.peek = some '\n' := by
      refine hend.resolve_left fun hnil => hne ?_
      rw [← List.nil_append (m.next.skipBlankLines.2.rest), ← hblank.reads.rest]
      simp [Cursor.next, hnil]
    rw [(Cursor.reads_next_of_peek hpeek).rest, hblank.reads.rest]
    rfl
  · have hmem : '\n' ∉ text := List.count_eq_zero.1 (hblank.count.symm.trans hcount)
    exact absurd (List.mem_of_getLast? hlast) hmem

theorem block_apart (hc : c.In source.toList) (h : block c = .ok (b, d))
    (h' : block d = .ok (b', e)) : Apart source b b' := by
  intro level k k' htouch hk hk'
  have hd : d.In source.toList := by
    obtain ⟨text, hreads⟩ := (block_fills hc h).reads
    exact hreads.in hc
  obtain ⟨m, hentry, hend, rfl, htouches⟩ := block_ok h
  obtain ⟨hcount, hne⟩ := htouches.1 htouch
  obtain ⟨m', hentry', -⟩ := block_ok h'
  obtain ⟨hpeek, hcomment⟩ := comment_of_entry (hk ▸ hentry)
  obtain ⟨hpeek', hcomment'⟩ := comment_of_entry (hk' ▸ hentry')
  obtain ⟨hstop, -⟩ := comment_stops hcomment hpeek
  obtain ⟨-, tail, htail, hblank⟩ := comment_stops hcomment' hpeek'
  -- with a blank behind the markers, the first comment would have gone on with the second one's line
  cases tail with
  | nil =>
    rw [List.append_nil] at htail
    rw [block_markers htail] at h'
    cases h'
    obtain ⟨-, rfl⟩ := Entry.comment.inj hk'
    obtain ⟨before, hsource, hoffset⟩ := hd
    refine ⟨rfl, ?_⟩
    rw [← byteLength_toList, hsource, byteLength_append, htail, ← hoffset]
    cases level <;> rfl
  | cons ch r =>
    refine absurd (Cursor.continuesComment_iff.2 ⟨ch, r, ?_, hblank ch r rfl⟩) hstop
    rw [next_line_of_count hend hcount hne, htail]

theorem blocks_apart {bs : List Block} (h : Parser.blocks (.ofString source) = .ok (bs, d)) :
    bs.IsChain (Apart source) := by
  rw [Parser.blocks, skipBlankLines_bind] at h
  obtain ⟨blank, hblank⟩ := (Cursor.ofString source).skipBlankLines_ends
  obtain ⟨new, rfl, -, hnew⟩ := gather_rounds (I := fun c => c.In source.toList)
    (P := fun c bs => (∀ b ∈ bs.head?, ∃ d, block c = .ok (b, d)) ∧ bs.IsChain (Apart source))
    (fun c _ _ => ⟨by simp, .nil⟩)
    (fun c b d hc _ hrun => by
      obtain ⟨text, hreads⟩ := (block_fills hc hrun).reads
      refine ⟨block_forward hc hrun, hreads.in hc, fun bs hbs => ⟨by simpa using ⟨d, hrun⟩, ?_⟩⟩
      refine List.isChain_cons.2 ⟨fun b' hb' => ?_, hbs.2⟩
      obtain ⟨e, hrun'⟩ := hbs.1 b' hb'
      exact block_apart hc hrun hrun')
    (hblank.reads.in (Cursor.in_ofString source)) h
  exact hnew

end Parser

namespace Resource

variable {source : String} {r r' : Resource} {level : CommentLevel} {c d : Comment}
  {before after : List Entry}

/-- Two comments of one level on neighbouring lines: the second is bare markers at the very end. -/
theorem comment_lines_join (h : Resource.parse source = .ok r)
    (hbody : r.body = before ++ .comment level c :: .comment level d :: after)
    (hnext : d.span.start = c.span.stop + 1) :
    d.content = "" ∧ d.span.stop = source.utf8ByteSize := by
  obtain ⟨bs, last, hblocks, rfl⟩ := parse_blocks h
  obtain ⟨start, hlie, -⟩ := Parser.blocks_lie hblocks
  have hread := Block.attach_separate fun _ => hlie.bare
  rw [show Block.attach bs = _ from hbody, List.flatMap_append] at hread
  obtain ⟨pre, rest, rfl, -, hrest⟩ := List.map_eq_append_iff.1 hread.symm
  obtain ⟨b, rest, rfl, hb, hrest⟩ := List.map_eq_cons_iff.1 hrest
  obtain ⟨b', rest, rfl, hb', -⟩ := List.map_eq_cons_iff.1 hrest
  obtain ⟨start', -, hlie'⟩ := hlie.of_append
  obtain _ | @⟨_, m, n, _, _, hfirst, hlie''⟩ := hlie'
  obtain _ | @⟨_, m', n', _, _, hsecond, -⟩ := hlie''
  have htouch : b.touchesNext := by
    have hstop : c.span.stop = m.offset := congrArg Span.stop (hb ▸ hfirst.span)
    have hstart : d.span.start = n.offset := congrArg Span.start (hb' ▸ hsecond.span)
    obtain ⟨text, hreads⟩ := hsecond.reads
    have hlt := hreads.length_lt hsecond.forward
    exact hfirst.touches.2 ⟨List.ne_nil_of_length_pos (by omega), by omega⟩
  have hchain := (List.isChain_append_cons_cons.1 (Parser.blocks_apart hblocks)).2.1
  exact hchain level c d htouch hb hb'

/-- The last two entries are comments of one level on neighbouring lines. -/
def EndsInMarkers (r : Resource) (before : List Entry) (level : CommentLevel) (c d : Comment) :
    Prop :=
  r.body = before ++ [.comment level c, .comment level d] ∧ d.span.start = c.span.stop + 1

/-- What a line end behind the source does to the outcome of parsing. -/
inductive FinalNewline : Except SyntaxError Resource → Except SyntaxError Resource → Prop
  | error (e e' : SyntaxError) : FinalNewline (.error e) (.error e')
  | same {r r' : Resource} (h : r'.body = r.body) : FinalNewline (.ok r) (.ok r')
  | joined {r r' : Resource} {before level c d} (h : r.EndsInMarkers before level c d)
      (h' : r'.body = before ++ [.comment level ⟨c.content ++ "\n", ⟨c.span.start, d.span.stop⟩⟩]) :
      FinalNewline (.ok r) (.ok r')

theorem parse_finalNewline (source : String) :
    FinalNewline (Resource.parse source) (Resource.parse (source ++ "\n")) := by
  have hstart : Cursor.ofString (source ++ "\n") = (Cursor.ofString source).ended := by
    simp [Cursor.ofString, Cursor.ended]
  obtain ⟨blank, hblank⟩ := (Cursor.ofString source).skipBlankLines_ends
  have hfinish := Parser.blocksFrom_finish (hblank.reads.in (Cursor.in_ofString source))
    (Parser.skipBlankLines_twin _) []
  have hblocks : ∀ c : Cursor, Parser.blocks c = Parser.blocksFrom [] c.skipBlankLines.2 :=
    fun _ => rfl
  rw [Resource.parse, Resource.parse, hblocks, hblocks, hstart]
  generalize Parser.blocksFrom [] (Cursor.ofString source).skipBlankLines.2 = run at hfinish ⊢
  generalize Parser.blocksFrom [] (Cursor.ofString source).ended.skipBlankLines.2 = run' at hfinish ⊢
  cases hfinish with
  | error e e' => exact .error e e'
  | same bs d d' => exact .same rfl
  | joined bs level k k' d d' h =>
    have hpair : Block.attach (bs ++ [⟨.comment level k, true⟩, ⟨.comment level k', false⟩]) =
        Block.attach bs ++ [.comment level k, .comment level k'] := by
      rw [Block.attach_append_comment rfl]
      cases level <;> rfl
    refine .joined ⟨hpair, h⟩ ?_
    change Block.attach _ = _
    rw [Block.attach_append_comment rfl, Block.attach_singleton]

/-- A line end behind a source changes nothing but where a comment ends in bare markers. -/
theorem parse_append_newline (source : String) :
    ((∃ r, Resource.parse source = .ok r) ↔ ∃ r, Resource.parse (source ++ "\n") = .ok r) ∧
      ∀ r r', Resource.parse source = .ok r → Resource.parse (source ++ "\n") = .ok r' →
        (r'.body = r.body ↔ ¬∃ before level c d, r.EndsInMarkers before level c d) ∧
          ∀ before level c d, r.EndsInMarkers before level c d →
            d = ⟨"", ⟨c.span.stop + 1, source.utf8ByteSize⟩⟩ ∧ r'.body = before ++
              [.comment level ⟨c.content ++ "\n", ⟨c.span.start, source.utf8ByteSize⟩⟩] := by
  have h := parse_finalNewline source
  generalize hrun : Resource.parse source = x at h ⊢
  generalize hrun' : Resource.parse (source ++ "\n") = x' at h ⊢
  cases h with
  | error e e' => exact ⟨by simp, by rintro r r' ⟨⟩⟩
  | @same r r' hsame =>
    refine ⟨by simp, ?_⟩
    rintro _ _ ⟨⟩ ⟨⟩
    have hnone : ∀ before level c d, ¬r.EndsInMarkers before level c d := by
      rintro before level c d ⟨hbody, hnext⟩
      -- the markers would end with the longer source, but they are read from the shorter one
      obtain ⟨-, hstop⟩ := comment_lines_join hrun' (hsame.trans hbody) hnext
      have hholds : (Node.resource r).Holds (.entry (.comment level d)) :=
        .child (by simp [Node.children, hbody]) (.self _)
      have hle : d.span.stop ≤ source.utf8ByteSize :=
        ((parse_sound hrun).placed_of_holds hholds).stop_le_size
      rw [String.utf8ByteSize_append] at hstop
      have hsize : "\n".utf8ByteSize = 1 := rfl
      omega
    exact ⟨by simp [hsame, hnone], fun before level c d h => absurd h (hnone before level c d)⟩
  | @joined r r' before level c d h hbody' =>
    refine ⟨by simp, ?_⟩
    rintro _ _ ⟨⟩ ⟨⟩
    refine ⟨iff_of_false (fun heq => ?_) fun hnone => hnone ⟨before, level, c, d, h⟩, ?_⟩
    · have hlength := congrArg List.length (hbody'.symm.trans (heq.trans h.1))
      simp at hlength
    · rintro before₂ level₂ c₂ d₂ ⟨hbody₂, -⟩
      obtain ⟨rfl, hlast⟩ := List.append_inj' (h.1.symm.trans hbody₂) rfl
      cases hlast
      obtain ⟨hcontent, hstop⟩ := comment_lines_join hrun h.1 h.2
      refine ⟨?_, hstop ▸ hbody'⟩
      rw [← hcontent, ← hstop, ← h.2]

/-- A message at the end of a source needs no line end. -/
theorem parse_append_newline_message : ∃ r r' : Resource, Resource.parse "a = b" = .ok r ∧
    Resource.parse ("a = b" ++ "\n") = .ok r' ∧ r'.body = r.body := by
  let value : Pattern := ⟨[.text ⟨"b", ⟨4, 5⟩⟩], ⟨4, 5⟩⟩
  let body : List Entry := [.message ⟨⟨"a", ⟨0, 1⟩⟩, some value, [], none, ⟨0, 5⟩⟩]
  have hparse : Resource.parse "a = b" = .ok ⟨body, ⟨0, 5⟩⟩ := by cbv
  obtain ⟨r', hparse'⟩ := (parse_append_newline "a = b").1.1 ⟨_, hparse⟩
  refine ⟨_, r', hparse, hparse', ((parse_append_newline "a = b").2 _ _ hparse hparse').1.2 ?_⟩
  rintro ⟨before, level, c, d, hbody, -⟩
  simpa [body] using congrArg List.length hbody

/-- Bare markers below a comment are a comment of their own, and with a line end its last line. -/
theorem parse_markers_at_end :
    Resource.parse "# a\n#" =
        .ok ⟨[.comment .note ⟨"a", ⟨0, 3⟩⟩, .comment .note ⟨"", ⟨4, 5⟩⟩], ⟨0, 5⟩⟩ ∧
      Resource.parse ("# a\n#" ++ "\n") = .ok ⟨[.comment .note ⟨"a\n", ⟨0, 5⟩⟩], ⟨0, 6⟩⟩ :=
  ⟨by cbv, by cbv⟩

end Resource

end MessageLint
