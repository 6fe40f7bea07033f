-- SUMMARY: Runs of the parsers for comments, messages and terms are safe.
import MessageLint.Proofs.Safety.Expression
import MessageLint.Proofs.Spans.Entry

/-!
# Safety of entries

The rules carried on to comments, messages and terms. Every round of the loops over comment lines,
attributes and entries must read something, as entries themselves must.
-/

namespace MessageLint

variable {source : String} {lo : Nat} {c d m : Cursor}

namespace Parser

-- ---------------------------------------------------------------------------
-- Comments
-- ---------------------------------------------------------------------------

theorem commentLine_safe {level : CommentLevel} (hc : (c.advance level.markers).At source lo) :
    Safe source lo (commentLine level c) := by
  rw [commentLine, skip_bind, peek_bind]
  generalize (c.advance level.markers).peek = first
  split
  · exact hc
  · exact hc
  · rw [skip_bind, takeWhile_apply]
    exact (hc.advance 1).skipWhile _
  · exact hc.here

theorem nextCommentLine_safe {level : CommentLevel} (hmore : c.continuesComment level)
    (hc : c.In source.toList) : Safe source (c.offset + 1) (nextCommentLine level c) := by
  rw [nextCommentLine, skip_bind]
  have hline := (Cursor.At.refl hc).next_of_peek (Cursor.continuesComment_eq_true hmore).1
  exact commentLine_safe (hline.advance _)

theorem comment_safe (hpeek : c.peek = some '#') (hc : c.In source.toList) :
    Safe source (c.offset + 1) (comment c) := by
  rw [comment, place_bind]
  have hmarkers : (c.advance (CommentLevel.ofLine c.rest).markers).At source (c.offset + 1) := by
    have hnext := (Cursor.At.refl hc).next_of_peek hpeek
    cases CommentLevel.ofLine c.rest with
    | note => exact hnext
    | group => exact hnext.advance 1
    | resource => exact hnext.advance 2
  refine (commentLine_safe hmarkers).bind fun _ d _ hd => ?_
  refine (gather_safe (fun _ _ hm hmore => nextCommentLine_safe hmore hm.isIn) hd).bind
    fun _ _ _ hm => hm.mono ?_
  have := hd.le
  split <;> omega

-- ---------------------------------------------------------------------------
-- Messages and terms
-- ---------------------------------------------------------------------------

theorem equalsSign_safe (hc : c.At source lo) : Safe source lo (equalsSign c) := by
  rw [equalsSign, skipSpaces_bind]
  exact (safe_token '=' hc.skipSpaces).mono (Nat.le_succ lo)

theorem attributeLine_safe (hc : c.In source.toList) :
    Safe source (c.offset + 1) (attributeLine c) := by
  rw [attributeLine, skipBlank_bind, place_bind, skip_bind]
  have hname := (Cursor.At.refl hc).skipBlank.advance 1
  refine (identifier_safe hname.isIn).bind fun _ m _ hm => ?_
  refine (equalsSign_safe hm).bind fun _ m _ hm => ?_
  have hvalue := requiredPattern_coincide (placeable_agree source) (hm.mono (Nat.zero_le _))
  refine hvalue.safe.bind fun _ _ _ hd => hd.mono ?_
  have := hname.le
  have := hm.le
  omega

theorem attributes_safe (hc : c.In source.toList) : Safe source c.offset (attributes c) := by
  refine (gather_safe (fun _ _ hm _ => attributeLine_safe hm.isIn) (.refl hc)).mono ?_
  split <;> omega

theorem message_safe (hc : c.In source.toList) : Safe source (c.offset + 1) (message c) := by
  rw [message, place_bind]
  refine (identifier_safe hc).bind fun _ m _ hm => ?_
  refine (equalsSign_safe hm).bind fun _ m _ hm => ?_
  have hvalue := pattern?_coincide (placeable_agree source) (hm.mono (Nat.zero_le _))
  refine hvalue.safe.bind fun _ d _ hd => ?_
  have hd := hd.mono hm.le
  refine (attributes_safe hd.isIn).bind fun _ m _ hm => ?_
  have hm := hm.mono hd.le
  rw [spanFrom_bind, ite_apply]
  split
  · exact (hm.mono (Nat.le_succ _)).spanTo
  · exact hm

theorem term_safe (hc : c.In source.toList) : Safe source (c.offset + 1) (term c) := by
  rw [term, place_bind, skip_bind]
  have hname := (Cursor.At.refl hc).advance 1
  refine ((identifier_safe hname.isIn).mono (Nat.succ_le_succ hname.le)).bind fun _ m _ hm => ?_
  refine (equalsSign_safe hm).bind fun _ m _ hm => ?_
  have hvalue := pattern?_coincide (placeable_agree source) (hm.mono (Nat.zero_le _))
  refine hvalue.safe.bind fun value d _ hd => ?_
  have hd := hd.mono hm.le
  cases value with
  | none => exact (hd.mono (Nat.le_succ _)).spanTo
  | some value => exact (attributes_safe hd.isIn).bind fun _ _ _ hm => hm.mono hd.le

theorem entry_safe (hc : c.In source.toList) : Safe source (c.offset + 1) (entry c) := by
  have hplace := Cursor.At.refl hc
  rw [entry, peek_bind]
  generalize hpeek : c.peek = first
  split
  · exact comment_safe hpeek hc
  · exact term_safe hc
  · rw [ite_apply]
    split
    · exact message_safe hc
    · exact hplace.here
  · exact hplace.here

theorem block_safe (hc : c.In source.toList) : Safe source (c.offset + 1) (block c) := by
  refine (entry_safe hc).bind fun _ _ _ hd => ?_
  refine (safe_lineEnd hd).bind fun _ _ _ hd => ?_
  rw [skipBlankLines_bind]
  exact hd.skipBlankLines

theorem blocks_safe (hc : c.In source.toList) : Safe source c.offset (blocks c) := by
  rw [blocks, skipBlankLines_bind]
  have hfirst := (Cursor.At.refl hc).skipBlankLines
  refine (gather_safe (fun _ _ hm _ => block_safe hm.isIn) hfirst).mono ?_
  have := hfirst.le
  split <;> omega

end Parser

end MessageLint
