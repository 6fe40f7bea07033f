-- SUMMARY: Comments, messages and terms are recovered from their texts.
import MessageLint.Proofs.Attachment
import MessageLint.Proofs.Basic
import MessageLint.Proofs.Canonical.Expression

/-!
# Recovery of entries

What ends an entry depends on its kind: a comment would go on with a further marked line
(`EndsComment`), a message or term with an indented line, a placeable or an attribute
(`EndsDefinition`).
-/

namespace MessageLint

namespace Parser

variable {rest : List Char}

-- ---------------------------------------------------------------------------
-- Comments
-- ---------------------------------------------------------------------------

/-- What may stand behind a comment: a line that is no comment. -/
def EndsComment (rest : List Char) : Prop := ∃ line, rest = '\n' :: line ∧ line.head? ≠ some '#'

theorem continuesComment_eq_false {line : List Char} (hline : line.head? ≠ some '#')
    (level : CommentLevel) (offset : Nat) :
    Cursor.continuesComment level ⟨'\n' :: line, offset⟩ = false := by
  cases line with
  | nil => cases level <;> rfl
  | cons ch line =>
    have hne : ('#' == ch) = false := by simpa using fun heq => hline (by simp [← heq])
    cases level <;> simp [Cursor.continuesComment, CommentLevel.markers, List.replicate_succ,
      List.isPrefixOf, hne]

/-- Behind the markers of a line stands a space or the line end. -/
theorem renderLine_append (level : CommentLevel) (line rest : List Char) :
    ∃ ch tail, level.renderLine line ++ '\n' :: rest =
        List.replicate level.markers '#' ++ ch :: tail ∧ (ch = ' ' ∨ ch = '\n') := by
  cases line with
  | nil => exact ⟨'\n', rest, by simp [CommentLevel.renderLine], .inr rfl⟩
  | cons ch line =>
    exact ⟨' ', ch :: line ++ '\n' :: rest, by simp [CommentLevel.renderLine], .inl rfl⟩

theorem continuesComment_renderLine (level : CommentLevel) (line : List Char) (offset : Nat) :
    Cursor.continuesComment level ⟨'\n' :: (level.renderLine line ++ '\n' :: rest), offset⟩ := by
  obtain ⟨ch, tail, htext, hch⟩ := renderLine_append level line rest
  rw [htext]
  rcases hch with rfl | rfl <;> cases level <;> rfl

theorem ofLine_renderLine (level : CommentLevel) (line : List Char) :
    CommentLevel.ofLine (level.renderLine line ++ '\n' :: rest) = level := by
  obtain ⟨ch, tail, htext, hch⟩ := renderLine_append level line rest
  rw [htext]
  rcases hch with rfl | rfl <;> cases level <;> rfl

theorem commentLine_recovers {level : CommentLevel} {line : List Char} (hline : '\n' ∉ line) :
    (commentLine level).Recovers id (String.ofList line) (level.renderLine line) ('\n' :: rest) := by
  refine .skip_bind (List.replicate level.markers '#') List.length_replicate (.peek_bind ?_)
  cases line with
  | nil => exact .pure rfl
  | cons ch line =>
    refine .skip_one_bind (.takeWhile (fun d hd => ?_) (stops_cons.2 (by simp)))
    have hne : d ≠ '\n' := by
      rintro rfl
      exact hline hd
    simpa using hne

theorem not_mem_of_mem_splitOn (text : List Char) : ∀ line ∈ text.splitOn '\n', '\n' ∉ line := by
  induction text with
  | nil => simp
  | cons ch text ih =>
    rw [List.splitOn_cons_eq_if_modifyHead]
    split
    · simpa using ih
    · next hch =>
      obtain ⟨first, lines, hsplit⟩ := List.exists_cons_of_ne_nil (List.splitOn_ne_nil '\n' text)
      rw [hsplit, List.forall_mem_cons] at ih
      rw [hsplit, List.modifyHead_cons, List.forall_mem_cons]
      refine ⟨?_, ih.2⟩
      simp only [List.mem_cons, not_or]
      exact ⟨fun heq => hch (by simp [← heq]), ih.1⟩

/-- Behind a line of a comment stands a line end, whatever comes next. -/
theorem EndsComment.lines (h : EndsComment rest) (level : CommentLevel) (lines : List (List Char)) :
    ∃ tail, (lines.flatMap fun line => '\n' :: level.renderLine line) ++ rest = '\n' :: tail := by
  cases lines with
  | nil =>
    obtain ⟨tail, rfl, -⟩ := h
    exact ⟨tail, rfl⟩
  | cons line lines => exact ⟨_, by rw [List.flatMap_cons, List.cons_append, List.cons_append]⟩

/-- The lines of a comment behind its first one. -/
theorem gather_lines_recovers {level : CommentLevel} {lines : List (List Char)} {seen : List String}
    (hlines : ∀ line ∈ lines, '\n' ∉ line) (hrest : EndsComment rest) :
    (gather (fun _ c => c.continuesComment level) (fun _ => nextCommentLine level) seen).Recovers
      (List.map id) (seen.reverse ++ lines.map String.ofList)
      (lines.flatMap fun line => '\n' :: level.renderLine line) rest := by
  apply Recovers.gather (M := fun _ todo text => ∃ lines : List (List Char),
    todo = lines.map String.ofList ∧
      text = (lines.flatMap fun line => '\n' :: level.renderLine line) ∧
      ∀ line ∈ lines, '\n' ∉ line)
  · rintro seen text ⟨lines, hnil, rfl, -⟩
    obtain rfl : lines = [] := by simpa using hnil.symm
    obtain ⟨tail, rfl, hhead⟩ := hrest
    exact ⟨rfl, continuesComment_eq_false hhead level⟩
  · rintro seen a as text ⟨lines, hcons, rfl, hlines⟩
    cases lines with
    | nil => simp at hcons
    | cons line lines =>
      obtain ⟨rfl, rfl⟩ := List.cons.inj hcons
      obtain ⟨hline, hlines⟩ := List.forall_mem_cons.1 hlines
      obtain ⟨r, hr⟩ := hrest.lines level lines
      refine ⟨'\n' :: level.renderLine line, _, List.flatMap_cons, by simp, ?_, ?_, ?_⟩
      · intro offset
        rw [hr]
        exact continuesComment_renderLine level line offset
      · rw [hr]
        exact .skip_one_bind (commentLine_recovers hline)
      · exact fun _ _ => ⟨lines, rfl, rfl, hlines⟩
  · exact ⟨lines, rfl, rfl, hlines⟩

theorem comment_recovers {level : CommentLevel} {c : Comment} (hrest : EndsComment rest) :
    comment.Recovers (·.respan .forget) (.comment level c) (c.render level) rest := by
  obtain ⟨first, lines, hsplit⟩ :=
    List.exists_cons_of_ne_nil (List.splitOn_ne_nil '\n' c.content.toList)
  have hclean := not_mem_of_mem_splitOn c.content.toList
  rw [hsplit, List.forall_mem_cons] at hclean
  have hcontent : "\n".intercalate (String.ofList first :: lines.map String.ofList) = c.content := by
    rw [← List.map_cons, ← hsplit, ← String.toList_inj, String.toList_intercalate, List.map_map]
    simp [Function.comp_def]
  obtain ⟨tail, htail⟩ := hrest.lines level lines
  rw [Comment.render, hsplit, List.map_cons, intercalate_singleton_cons, List.flatMap_map]
  refine .place_bind fun start hstart => ?_
  have hlevel : CommentLevel.ofLine start.rest = level := by
    rw [hstart, List.append_assoc, htail]
    exact ofLine_renderLine level first
  simp only [hlevel]
  refine .bind (g := id) (a := String.ofList first) ?_ fun first' hfirst => ?_
  · rw [htail]
    exact commentLine_recovers hclean.1
  obtain rfl : first' = String.ofList first := hfirst
  refine .bind_last (gather_lines_recovers hclean.2 hrest) fun lines' hlines => ?_
  refine .spanFrom_bind fun _ => ?_
  obtain rfl : lines' = String.ofList first :: lines.map String.ofList := by simpa using hlines
  refine .pure ?_
  simp [Entry.respan, Comment.respan, hcontent]

-- ---------------------------------------------------------------------------
-- Messages and terms
-- ---------------------------------------------------------------------------

/-- What may stand behind a message or term: a line that is neither part of its value nor one of its
attributes. -/
structure EndsDefinition (rest : List Char) : Prop where
  pattern : EndsPattern rest
  dot : (rest.dropWhile Cursor.isBlank).head? ≠ some '.'

theorem equalsSign_recovers {α β : Type} {f : Unit → Parser α} {g : α → β} {a : α}
    {text : List Char} (hf : (f ()).Recovers g a text rest) :
    (equalsSign >>= f).Recovers g a (' ' :: '=' :: text) rest := by
  rw [equalsSign, bind_assoc]
  exact .skipSpaces_bind [' '] (by simp [Cursor.isSpace]) (stops_cons.2 rfl) (.token_bind hf)

theorem attributeLine_recovers {a : Attribute} (ha : a.Canonical) (hrest : EndsPattern rest) :
    attributeLine.Recovers (·.respan .forget) a a.render rest := by
  refine .skipBlank_bind ['\n', ' ', ' ', ' ', ' '] (by simp [Cursor.isBlank]) (stops_cons.2 rfl) ?_
  refine .place_bind fun start _ => .skip_one_bind ?_
  refine .bind (identifier_recovers ha.1 (stops_cons.2 rfl)) fun id hid => equalsSign_recovers ?_
  have hvalue := requiredPattern_recovers (placeable_recovers _) ha.2 (Nat.lt_succ_self _) hrest
  refine .bind_last hvalue fun value' hvalue' => .spanFrom_bind fun _ => .pure ?_
  simp [Attribute.respan, hid, hvalue']

/-- Behind a value or an attribute stands the next attribute, or the end of the definition. -/
theorem endsPattern_attributes (attrs : List Attribute) (hrest : EndsPattern rest) :
    EndsPattern (attrs.flatMap (·.render) ++ rest) := by
  cases attrs with
  | nil => exact hrest
  | cons a attrs =>
    have hspaces : ∀ ch ∈ [' ', ' ', ' ', ' '], ch = ' ' := by simp
    exact endsPattern_line hspaces rfl (by decide) (.inr (by simp))

theorem attributes_recovers {attrs : List Attribute} (hattrs : ∀ a ∈ attrs, a.Canonical)
    (hrest : EndsDefinition rest) :
    attributes.Recovers (List.map (·.respan .forget)) attrs (attrs.flatMap (·.render)) rest := by
  apply Recovers.gather (M := fun _ todo text =>
    text = todo.flatMap (·.render) ∧ ∀ a ∈ todo, a.Canonical)
  · rintro seen text ⟨rfl, -⟩
    exact ⟨rfl, fun _ => decide_eq_false hrest.dot⟩
  · rintro seen a attrs text ⟨rfl, hattrs⟩
    obtain ⟨ha, hattrs⟩ := List.forall_mem_cons.1 hattrs
    refine ⟨a.render, _, List.flatMap_cons, by simp [Attribute.render], fun _ => rfl, ?_, ?_⟩
    · exact attributeLine_recovers ha (endsPattern_attributes _ hrest.pattern)
    · exact fun _ _ => ⟨rfl, hattrs⟩
  · exact ⟨rfl, hattrs⟩

/-- The value of a message, or that it has none because its attributes follow. -/
theorem value_recovers {value : Option Pattern} {attrs : List Attribute}
    (hvalue : ∀ p ∈ value, p.Canonical) (hfield : value.isSome ∨ attrs ≠ [])
    (hrest : EndsDefinition rest) :
    (pattern? placeable).Recovers (Option.map (·.respan .forget)) value (renderValue value)
      (attrs.flatMap (·.render) ++ rest) := by
  have hends := endsPattern_attributes attrs hrest.pattern
  cases value with
  | some p =>
    exact pattern?_recovers (placeable_recovers _) (hvalue p rfl) (Nat.lt_succ_self _) hends
  | none =>
    cases attrs with
    | nil => simp at hfield
    | cons a attrs => exact pattern?_recovers_none hends

/-- A message is recovered with its value and its attributes. -/
theorem message_of_value {m : Message} {value : List Char} (hid : m.id.Canonical)
    (hnote : m.comment = none) (hfield : m.value.isSome ∨ m.attributes ≠ [])
    (hvalue : (pattern? placeable).Recovers (Option.map (·.respan .forget)) m.value value
      (m.attributes.flatMap (·.render) ++ rest))
    (hattrs : ∀ a ∈ m.attributes, a.Canonical) (hrest : EndsDefinition rest) :
    message.Recovers (·.respan .forget) (.message m)
      (m.id.render ++ ' ' :: '=' :: (value ++ m.attributes.flatMap (·.render))) rest := by
  obtain ⟨id, content, attrs, comment, span⟩ := m
  obtain rfl : comment = none := hnote
  refine .place_bind fun start _ => ?_
  refine .bind (identifier_recovers hid (stops_cons.2 rfl)) fun id' hid' => equalsSign_recovers ?_
  refine .bind hvalue fun content' hcontent => ?_
  refine .bind_last (attributes_recovers hattrs hrest) fun attrs' hattrs' => ?_
  refine .spanFrom_bind fun _ => ?_
  have hnone : content'.isNone = content.isNone := by simpa using congrArg Option.isNone hcontent
  have hempty : attrs'.isEmpty = attrs.isEmpty := by simpa using congrArg List.isEmpty hattrs'
  have hfield' : ¬(content'.isNone && attrs'.isEmpty) := by
    rw [hnone, hempty]
    cases content with
    | some => simp
    | none => simpa using hfield
  rw [if_neg hfield']
  refine .pure ?_
  simp [Entry.respan, Message.respan, hid', hcontent, hattrs']

theorem message_recovers {m : Message} (hm : (Entry.message m).Canonical) (hnote : m.comment = none)
    (hrest : EndsDefinition rest) :
    message.Recovers (·.respan .forget) (.message m) (Entry.message m).render rest := by
  obtain ⟨hid, hvalue, hattrs, hfield⟩ := hm
  have hrun := message_of_value hid hnote hfield (value_recovers hvalue hfield hrest) hattrs hrest
  obtain ⟨id, value, attrs, comment, span⟩ := m
  obtain rfl : comment = none := hnote
  exact hrun

theorem term_recovers {t : Term} (ht : (Entry.term t).Canonical) (hnote : t.comment = none)
    (hrest : EndsDefinition rest) :
    term.Recovers (·.respan .forget) (.term t) (Entry.term t).render rest := by
  obtain ⟨id, value, attrs, comment, span⟩ := t
  obtain rfl : comment = none := hnote
  obtain ⟨hid, hvalue, hattrs⟩ := ht
  have hends := endsPattern_attributes attrs hrest.pattern
  have hpattern := pattern?_recovers (placeable_recovers _) hvalue (Nat.lt_succ_self _) hends
  change term.Recovers _ _ ('-' :: (id.render ++
    ' ' :: '=' :: (' ' :: value.render ++ attrs.flatMap (·.render)))) rest
  refine .place_bind fun start _ => .skip_one_bind ?_
  refine .bind (identifier_recovers hid (stops_cons.2 rfl)) fun id' hid' => equalsSign_recovers ?_
  refine .bind hpattern fun found hfound => ?_
  cases found with
  | none => simp at hfound
  | some value' =>
    refine .bind_last (attributes_recovers hattrs hrest) fun attrs' hattrs' => ?_
    refine .spanFrom_bind fun _ => .pure ?_
    simp_all [Entry.respan, Term.respan]

-- ---------------------------------------------------------------------------
-- Entries
-- ---------------------------------------------------------------------------

/-- What may stand behind an entry. -/
def EndsEntry : Entry → List Char → Prop
  | .comment .., rest => EndsComment rest
  | _, rest => EndsDefinition rest

/-- The character that an entry starts with tells its kind. -/
def Starts : Entry → Char → Prop
  | .comment .., ch => ch = '#'
  | .term _, ch => ch = '-'
  | .message _, ch => ch.isAlpha

theorem exists_head_of_comment (level : CommentLevel) (c : Comment) :
    ∃ tail, c.render level = '#' :: tail := by
  have hmarkers : ∃ tail, List.replicate level.markers '#' = '#' :: tail := by
    cases level <;> exact ⟨_, rfl⟩
  obtain ⟨tail, hmarkers⟩ := hmarkers
  obtain ⟨first, lines, hsplit⟩ :=
    List.exists_cons_of_ne_nil (List.splitOn_ne_nil '\n' c.content.toList)
  rw [Comment.render, hsplit, List.map_cons, intercalate_singleton_cons, CommentLevel.renderLine, hmarkers]
  exact ⟨_, rfl⟩

theorem exists_head_of_entry {e : Entry} (he : e.Canonical) (hnote : e.note? = none) :
    ∃ ch tail, e.render = ch :: tail ∧ Starts e ch := by
  cases e with
  | comment level c =>
    obtain ⟨tail, hhead⟩ := exists_head_of_comment level c
    exact ⟨'#', tail, hhead, rfl⟩
  | term t =>
    obtain ⟨id, value, attrs, comment, span⟩ := t
    obtain rfl : comment = none := hnote
    exact ⟨'-', _, rfl, rfl⟩
  | message m =>
    obtain ⟨id, value, attrs, comment, span⟩ := m
    obtain rfl : comment = none := hnote
    obtain ⟨first, tail, hname, halpha⟩ := exists_head_of_isName he.1
    refine ⟨first, tail ++ ' ' :: '=' :: (renderValue value ++ attrs.flatMap (·.render)), ?_, halpha⟩
    change id.name.toList ++ _ = _
    rw [hname, List.cons_append]

/-- A letter starts a message. -/
theorem entry_of_message {e : Entry} {ch : Char} {tail : List Char} (halpha : ch.isAlpha)
    (hmessage : message.Recovers (·.respan .forget) e (ch :: tail) rest) :
    entry.Recovers (·.respan .forget) e (ch :: tail) rest := by
  refine .peek_bind ?_
  rw [List.cons_append, List.head?_cons]
  generalize hfirst : some ch = first
  split
  · obtain rfl := Option.some.inj hfirst
    exact absurd halpha (by decide)
  · obtain rfl := Option.some.inj hfirst
    exact absurd halpha (by decide)
  · obtain rfl := Option.some.inj hfirst
    rw [if_pos halpha]
    exact hmessage
  · simp at hfirst

theorem entry_recovers {e : Entry} (he : e.Canonical) (hnote : e.note? = none)
    (hrest : EndsEntry e rest) : entry.Recovers (·.respan .forget) e e.render rest := by
  obtain ⟨ch, tail, hhead, hstarts⟩ := exists_head_of_entry he hnote
  cases e with
  | comment level c =>
    obtain rfl : ch = '#' := hstarts
    refine .peek_bind ?_
    rw [hhead, List.cons_append, List.head?_cons, ← hhead]
    exact comment_recovers hrest
  | term t =>
    obtain rfl : ch = '-' := hstarts
    refine .peek_bind ?_
    rw [hhead, List.cons_append, List.head?_cons, ← hhead]
    exact term_recovers he hnote hrest
  | message m =>
    rw [hhead]
    exact entry_of_message hstarts (hhead ▸ message_recovers he hnote hrest)

end Parser

end MessageLint
