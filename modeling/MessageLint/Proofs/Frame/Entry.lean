-- SUMMARY: Parsers for comments, messages and terms do the same inside a frame.
import MessageLint.Proofs.Frame.Expression

/-!
# Entries inside frames

A message or term looks ahead for attributes and indented lines, and a text that starts like an entry
is neither. A comment looks ahead for a further line, which that text can be: the comment must not
end right in front of it.
-/

namespace MessageLint

namespace Parser

variable {w : Frame} {c : Cursor}

-- ---------------------------------------------------------------------------
-- Comments
-- ---------------------------------------------------------------------------

/-- A run of markers that ends within the source is as long inside the frame. -/
private theorem markers_append (k : Nat) (tail : List Char) {line : List Char} (h : '\n' ∈ line) :
    (List.replicate k '#').isPrefixOf (line ++ tail) = (List.replicate k '#').isPrefixOf line ∧
      ((List.replicate k '#').isPrefixOf line → ∃ ch r, line.drop k = ch :: r) := by
  induction k generalizing line with
  | zero =>
    obtain ⟨ch, r, rfl⟩ := List.exists_cons_of_ne_nil (List.ne_nil_of_mem h)
    exact ⟨rfl, fun _ => ⟨ch, r, rfl⟩⟩
  | succ k ih =>
    obtain ⟨ch, r, rfl⟩ := List.exists_cons_of_ne_nil (List.ne_nil_of_mem h)
    by_cases hch : ch = '#'
    · subst hch
      have hr : '\n' ∈ r := by simpa using h
      simpa [List.replicate_succ, List.isPrefixOf] using ih hr
    · have hne : ('#' == ch) = false := by simpa using Ne.symm hch
      simp [List.replicate_succ, List.isPrefixOf, hne]

theorem Spaced.mem {rest : List Char} (h : Spaced rest) : '\n' ∈ rest :=
  List.mem_of_getLast? h.1

theorem ofLine_inside (h : w.tail = [] ∨ Spaced c.rest) :
    CommentLevel.ofLine (c.inside w).rest = CommentLevel.ofLine c.rest := by
  obtain htail | hspaced := h
  · rw [Cursor.inside_of_tail htail]
  · have hmem := Spaced.mem hspaced
    have hthree := (markers_append 3 w.tail hmem).1
    have htwo := (markers_append 2 w.tail hmem).1
    simp only [List.replicate] at hthree htwo
    simp only [CommentLevel.ofLine, Cursor.rest_inside, hthree, htwo]

theorem continuesComment_inside {level : CommentLevel} (h : w.tail = [] ∨ Spaced c.rest) :
    (c.inside w).continuesComment level = c.continuesComment level := by
  obtain htail | hspaced := h
  · rw [Cursor.inside_of_tail htail]; rfl
  · obtain ⟨rest, offset⟩ := c
    match rest with
    | [] => exact absurd (Spaced.mem hspaced) (by simp)
    | ch :: line =>
      by_cases hch : ch = '\n'
      · subst hch
        have hmem : '\n' ∈ line := by
          obtain ⟨hlast, hne⟩ := hspaced
          cases line with
          | nil => exact absurd rfl hne
          | cons k line => exact List.mem_of_getLast? (by simpa using hlast)
        obtain ⟨hmarks, hdrop⟩ := markers_append level.markers w.tail hmem
        simp only [Cursor.continuesComment, Cursor.rest_inside, List.cons_append, hmarks]
        cases hmarkers : (List.replicate level.markers '#').isPrefixOf line with
        | false => rfl
        | true =>
          obtain ⟨ch, r, hr⟩ := hdrop hmarkers
          simp [List.drop_append, hr]
      · simp [Cursor.continuesComment, hch]

theorem commentLine_carries {G : List Char → Prop} (hG : Guard G) (level : CommentLevel) :
    (commentLine level).Carries w G G id (commentLine level) :=
  (Carries.skip hG level.markers).bind fun _ => Carries.peek_bind hG fun next => by
    split
    · exact .pure _ rfl
    · exact .pure _ rfl
    · exact (Carries.skip hG 1).bind fun _ => Carries.takeWhile hG _
    · exact .fail _

theorem comment_carries : comment.Carries w Spaced Spaced (·.respan w.move) comment := by
  intro c
  apply Frame.Agree.congr
  · intro hc
    rw [comment, place_bind, ofLine_inside hc]
  · rw [comment, place_bind]
    refine Carries.agree ((commentLine_carries Spaced.guard _).bind fun first => ?_) c
    refine (Carries.gather (h := id) (fun _ c hc => continuesComment_inside hc)
      (fun _ => (Carries.skip Spaced.guard 1).bind fun _ => commentLine_carries Spaced.guard _)
      [first]).bind fun lines => ?_
    refine (Carries.spanFrom c).bind fun span => .pure _ ?_
    simp [Entry.respan, Comment.respan]

-- ---------------------------------------------------------------------------
-- Messages and terms
-- ---------------------------------------------------------------------------

theorem equalsSign_carries : equalsSign.Carries w Inked Anything id equalsSign :=
  (Carries.skipSpaces Inked.guard).bind fun _ => Carries.token rfl

private theorem placeable_lined :
    Parser.Carries w Lined Lined (·.respan w.move) Parser.placeable Parser.placeable :=
  placeable_carries.mono (fun _ => Inked.lined) fun _ _ => trivial

theorem attributeLine_carries :
    attributeLine.Carries w Inked Lined (·.respan w.move) attributeLine :=
  (Carries.skipBlank Inked.guard).bind fun _ => Carries.place_bind fun start =>
    (Carries.skip Inked.guard 1).bind fun _ => identifier_carries.bind fun _ =>
      (equalsSign_carries.mono (fun _ h => h) fun _ _ => trivial).bind fun _ =>
        (requiredPattern_carries Lined.guard placeable_lined).bind fun _ =>
          (Carries.spanFrom start).bind fun _ => .pure _ rfl

/-- An attribute starts with a dot, and the text behind does not. -/
theorem peek_attribute_inside :
    (c.inside w).skipBlank.peek = some '.' ↔ c.skipBlank.peek = some '.' := by
  by_cases hrest : c.skipBlank.rest = []
  · have hpeek : (c.inside w).skipBlank.peek = w.tail.head? :=
      Cursor.peek_skipWhile_inside hrest fun _ => w.tail_head_not_blank
    rw [hpeek, Cursor.peek, hrest]
    refine ⟨fun hdot => ?_, fun hnone => by simp at hnone⟩
    exact absurd (w.tail_head _ hdot) (by decide)
  · have hskip : (c.inside w).skipBlank = c.skipBlank.inside w := Cursor.skipWhile_inside (.inr hrest)
    rw [hskip, Cursor.peek_inside (.inr hrest)]

theorem attributes_carries :
    attributes.Carries w Lined Lined (List.map (·.respan w.move)) attributes :=
  .gather (fun _ _ _ => by simp only [peek_attribute_inside])
    (fun _ => attributeLine_carries.mono (fun _ => Inked.lined) fun _ h => h) []

theorem message_carries : message.Carries w Inked Lined (·.respan w.move) message :=
  Carries.place_bind fun start => identifier_carries.bind fun id =>
    (equalsSign_carries.mono (fun _ h => h) fun _ _ => trivial).bind fun _ =>
      (pattern?_carries Lined.guard placeable_lined).bind fun value =>
        attributes_carries.bind fun attrs => (Carries.spanFrom start).bind fun span => by
          rw [Option.isNone_map, List.isEmpty_map]
          exact .ite (fun _ => .failAt _ rfl) fun _ => .pure _ rfl

theorem term_carries : term.Carries w Inked Lined (·.respan w.move) term :=
  Carries.place_bind fun start => (Carries.skip Inked.guard 1).bind fun _ =>
    identifier_carries.bind fun id =>
      (equalsSign_carries.mono (fun _ h => h) fun _ _ => trivial).bind fun _ =>
        (pattern?_carries Lined.guard placeable_lined).bind fun value => by
          cases value with
          | none => exact (Carries.spanFrom start).bind fun span => .failAt _ rfl
          | some value =>
            exact attributes_carries.bind fun attrs => (Carries.spanFrom start).bind fun span =>
              .pure _ rfl

end Parser

end MessageLint
