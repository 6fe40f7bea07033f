-- SUMMARY: Messages and terms are read alike with a line end behind the source, most comments too.
import MessageLint.Proofs.Spans.Entry
import MessageLint.Proofs.FinalNewline.Expression

/-!
# Entries in front of a final line end

A message or term ends where its last line does. A comment goes on with a line of markers only if a
space or a line end stands behind them, so markers at the very end of the source are a line of the
comment above them with the line end and none without it (`Parser.comment_same_or_extends`).
-/

namespace MessageLint

-- ---------------------------------------------------------------------------
-- Markers at the end of the source
-- ---------------------------------------------------------------------------

/-- At a line end with nothing but the markers of `level` behind it. -/
def Cursor.BeforeMarkers (level : CommentLevel) (c : Cursor) : Prop :=
  c.rest = '\n' :: List.replicate level.markers '#'

/-- Behind those markers. -/
def Cursor.pastMarkers (level : CommentLevel) (c : Cursor) : Cursor := c.advance (level.markers + 1)

namespace Cursor

variable {c : Cursor} {level : CommentLevel}

theorem BeforeMarkers.rest_eq (h : c.BeforeMarkers level) :
    c.rest = '\n' :: List.replicate level.markers '#' := h

theorem BeforeMarkers.pastMarkers (h : c.BeforeMarkers level) :
    c.pastMarkers level = ⟨[], c.offset + 1 + level.markers⟩ := by
  obtain ⟨rest, offset⟩ := c
  obtain rfl : rest = '\n' :: List.replicate level.markers '#' := h
  cases level <;> rfl

theorem continuesComment_iff : c.continuesComment level ↔
    ∃ ch r, c.rest = '\n' :: (List.replicate level.markers '#' ++ ch :: r) ∧ isBlank ch := by
  unfold continuesComment
  split
  · next line hrest =>
    rw [hrest, Bool.and_eq_true, List.isPrefixOf_iff_prefix]
    constructor
    · rintro ⟨⟨tail, rfl⟩, hnext⟩
      rw [List.drop_left' List.length_replicate] at hnext
      cases tail with
      | nil => cases hnext
      | cons ch r => exact ⟨ch, r, rfl, hnext⟩
    · rintro ⟨ch, r, hline, hch⟩
      obtain rfl := (List.cons.inj hline).2
      rw [List.drop_left' List.length_replicate]
      exact ⟨List.prefix_append _ _, hch⟩
  · next hrest =>
    refine iff_of_false (by simp) ?_
    rintro ⟨ch, r, hline, -⟩
    exact hrest _ hline

theorem BeforeMarkers.not_continuesComment (h : c.BeforeMarkers level) :
    ¬c.continuesComment level := by
  rw [continuesComment_iff]
  rintro ⟨ch, r, hline, -⟩
  simpa using congrArg List.length (h.symm.trans hline)

theorem BeforeMarkers.continuesComment_ended (h : c.BeforeMarkers level) :
    c.ended.continuesComment level :=
  continuesComment_iff.2 ⟨'\n', [], by rw [rest_ended, h, List.cons_append], rfl⟩

theorem continuesComment_ended (h : ¬c.BeforeMarkers level) :
    c.ended.continuesComment level = c.continuesComment level := by
  rw [Bool.eq_iff_iff, continuesComment_iff, continuesComment_iff, rest_ended]
  constructor
  · rintro ⟨ch, r, hline, hch⟩
    obtain rfl | ⟨r, last, rfl⟩ := List.eq_nil_or_concat r
    · have hsplit : c.rest ++ ['\n'] = ('\n' :: List.replicate level.markers '#') ++ [ch] := by
        simpa using hline
      exact absurd (List.append_inj' hsplit rfl).1 h
    · have hsplit : c.rest ++ ['\n'] =
          ('\n' :: (List.replicate level.markers '#' ++ ch :: r)) ++ [last] := by
        simpa using hline
      exact ⟨ch, r, (List.append_inj' hsplit rfl).1, hch⟩
  · rintro ⟨ch, r, hline, hch⟩
    exact ⟨ch, r ++ ['\n'], by simp [hline], hch⟩

end Cursor

/-- The level of a comment is seen on its markers. -/
theorem CommentLevel.ofLine_append_newline (line : List Char) :
    CommentLevel.ofLine (line ++ ['\n']) = CommentLevel.ofLine line := by
  have hmarkers : ∀ n, (List.replicate n '#').isPrefixOf (line ++ ['\n']) =
      (List.replicate n '#').isPrefixOf line := by
    intro n
    rw [Bool.eq_iff_iff, List.isPrefixOf_iff_prefix, List.isPrefixOf_iff_prefix,
      List.prefix_concat_iff]
    refine or_iff_right fun heq => ?_
    have hmem : '\n' ∈ List.replicate n '#' := by simp [heq]
    simp at hmem
  have hthree := hmarkers 3
  have htwo := hmarkers 2
  simp only [List.replicate] at hthree htwo
  rw [CommentLevel.ofLine, CommentLevel.ofLine, hthree, htwo]

namespace Parser

variable {c : Cursor} {level : CommentLevel}

-- ---------------------------------------------------------------------------
-- Comments
-- ---------------------------------------------------------------------------

theorem commentLine_same (h : List.replicate level.markers '#' <+: c.rest) :
    Same (commentLine level c) (commentLine level c.ended) := by
  have hle : level.markers ≤ c.rest.length := by simpa using h.length_le
  rw [commentLine, skip_bind, skip_bind, Cursor.advance_ended hle]
  refine .peek_bind (fun _ => .ok _ _) fun hne first _ => ?_
  split
  · exact .ok _ _
  · exact .ok _ _
  · exact .skip_bind hne (Mirrors.takeWhile rfl _)
  · exact .error _ _

/-- The lines of a comment from a place on, behind those that were read before. -/
def commentLines (level : CommentLevel) (seen : List String) : Parser (List String) :=
  gather (fun _ c => c.continuesComment level) (fun _ => nextCommentLine level) seen

/-- The run `r'` reads one line more than `r`, markers at the end of the source. -/
def Extends (level : CommentLevel) (r r' : Except SyntaxError (List String × Cursor)) : Prop :=
  ∃ lines d, d.BeforeMarkers level ∧ r = .ok (lines, d) ∧
    r' = .ok (lines ++ [""], (d.pastMarkers level).ended)

theorem commentLines_extends (h : c.BeforeMarkers level) (seen : List String) :
    Extends level (commentLines level seen c) (commentLines level seen c.ended) := by
  have hline : nextCommentLine level c.ended = .ok ("", (c.pastMarkers level).ended) := by
    obtain ⟨rest, offset⟩ := c
    obtain rfl : rest = '\n' :: List.replicate level.markers '#' := h
    cases level <;> rfl
  have hstop : ¬(c.pastMarkers level).ended.continuesComment level := by
    rw [h.pastMarkers, Cursor.continuesComment_iff]
    rintro ⟨ch, r, hrest, -⟩
    cases level <;> cases hrest
  refine ⟨seen.reverse, c, h, ?_, ?_⟩
  · rw [commentLines, gather, if_neg h.not_continuesComment]
  · rw [commentLines, gather, if_pos h.continuesComment_ended, hline]
    have hlt : (c.pastMarkers level).ended.rest.length < c.ended.rest.length := by
      simp [h.pastMarkers, h.rest_eq]
    simp only [if_pos hlt]
    rw [gather, if_neg hstop, List.reverse_cons]

theorem commentLines_same_or_extends (level : CommentLevel) (seen : List String) (c : Cursor) :
    Same (commentLines level seen c) (commentLines level seen c.ended) ∨
      Extends level (commentLines level seen c) (commentLines level seen c.ended) := by
  refine gather_related (R := fun r r' => Same r r' ∨ Extends level r r') .inl
    (fun seen c => ?_) seen c
  by_cases h : c.BeforeMarkers level
  · exact .inl (.inr (commentLines_extends h seen))
  · refine .inr ⟨Cursor.continuesComment_ended h, fun hmore => ?_⟩
    obtain ⟨ch, r, hrest, -⟩ := Cursor.continuesComment_iff.1 hmore
    refine .skip_bind (by simp [hrest]) (commentLine_same ?_)
    simp [Cursor.next, hrest]

/-- A comment is read alike with and without a line end, unless the source goes on with markers. -/
theorem comment_same_or_extends (hpeek : c.peek = some '#') :
    Same (comment c) (comment c.ended) ∨
      ∃ content d, d.BeforeMarkers (CommentLevel.ofLine c.rest) ∧
        comment c = .ok (.comment (CommentLevel.ofLine c.rest) ⟨content, c.spanTo d⟩, d) ∧
        comment c.ended = .ok (.comment (CommentLevel.ofLine c.rest)
          ⟨content ++ "\n", c.spanTo (d.pastMarkers (CommentLevel.ofLine c.rest))⟩,
          (d.pastMarkers (CommentLevel.ofLine c.rest)).ended) := by
  have hfirst := commentLine_same (CommentLevel.markers_prefix hpeek)
  rw [comment, place_bind, place_bind, Cursor.rest_ended, CommentLevel.ofLine_append_newline]
  generalize CommentLevel.ofLine c.rest = level at hfirst ⊢
  cases hrun : commentLine level c with
  | error e => exact .inl (.bind hrun rfl (hrun ▸ hfirst) fun _ _ h => by cases h)
  | ok r =>
    obtain ⟨first, m⟩ := r
    obtain hlines | ⟨lines, d, hd, hlines, hlines'⟩ :=
      commentLines_same_or_extends level [first] m
    · refine .inl (.bind hrun rfl (hrun ▸ hfirst) ?_)
      rintro _ _ ⟨⟩
      exact hlines.bind_mirrors fun lines => .spanned rfl _
    · have hrun' : commentLine level c.ended = .ok (first, m.ended) := by
        generalize commentLine level c.ended = r' at hfirst
        rw [hrun] at hfirst
        cases hfirst
        rfl
      have hne : lines ≠ [] := by
        have hseen := gather_induction (motive := fun seen _ => seen ≠ [])
          (fun _ _ line _ _ _ _ => List.cons_ne_nil line _) (by simp) hlines
        simpa using hseen
      refine .inr ⟨"\n".intercalate lines, d, hd, ?_, ?_⟩
      · exact bind_eq_ok.2 ⟨first, m, hrun, bind_eq_ok.2 ⟨lines, d, hlines, rfl⟩⟩
      · refine bind_eq_ok.2 ⟨first, m.ended, hrun', bind_eq_ok.2 ⟨_, _, hlines', ?_⟩⟩
        rw [String.intercalate_append_of_ne_nil hne (by simp)]
        simp

-- ---------------------------------------------------------------------------
-- Messages and terms
-- ---------------------------------------------------------------------------

theorem equalsSign_mirrors : Mirrors equalsSign equalsSign :=
  Mirrors.skipSpaces.bind fun _ => (Closes.token rfl).mirrors

theorem attributeLine_closes : Closes attributeLine attributeLine :=
  Echoes.skipBlank.bind_closes fun _ => .place_bind fun _ _ hstart =>
    (Echoes.skip 1).bind_closes fun _ => identifier_closes.bind fun _ =>
      equalsSign_mirrors.bind fun _ =>
        (requiredPattern_mirrors placeable_mirrors).bind fun _ => .spanned hstart _

theorem attributes_mirrors : Mirrors attributes attributes :=
  .gather (fun _ _ => by simp only [Cursor.peek_skipBlank_ended (t := '.') rfl])
    (fun _ c _ => attributeLine_closes.mirrors c) []

theorem message_mirrors : Mirrors message message :=
  .place_bind fun start => identifier_mirrors.bind fun id => equalsSign_mirrors.bind fun _ =>
    (pattern?_mirrors placeable_mirrors).bind fun value => attributes_mirrors.bind fun attrs =>
      .spanFrom_bind rfl fun span => by
        split
        · exact .failAt _ _ _ _
        · exact .pure _

theorem term_closes : Closes term term :=
  .place_bind fun start start' hstart => (Echoes.skip 1).bind_closes fun _ =>
    identifier_closes.bind fun id => equalsSign_mirrors.bind fun _ =>
      (pattern?_mirrors placeable_mirrors).bind fun value => by
        split
        · exact .spanFrom_bind hstart fun span => .failAt _ _ _ _
        · exact attributes_mirrors.bind fun attrs => .spanned hstart _

/-- Only comments can be read differently with a line end behind the source. -/
theorem entry_same (hc : c.rest ≠ [])
    (hcomment : c.peek = some '#' → Same (comment c) (comment c.ended)) :
    Same (entry c) (entry c.ended) :=
  .peek_bind (fun hnil => absurd hnil hc) fun _ first hfirst => by
    split
    · exact hcomment hfirst
    · exact term_closes.mirrors c
    · rw [ite_apply, ite_apply]
      split
      · exact message_mirrors c
      · exact .error _ _
    · exact .error _ _

end Parser

end MessageLint
