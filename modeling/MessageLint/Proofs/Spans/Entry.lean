-- SUMMARY: Rows of nodes read by the parsers for comments, messages and terms.
import MessageLint.Proofs.Spans.Expression

/-!
# Spans of entries

The text of a comment is tied to its content line by line (`comment_fills`); messages, terms and
their attributes are rows like any other construct.
-/

namespace MessageLint

-- ---------------------------------------------------------------------------
-- Lines of comments
-- ---------------------------------------------------------------------------

private theorem intercalate_concat {sep line : List Char} {lines : List (List Char)}
    (h : lines ≠ []) :
    sep.intercalate (lines ++ [line]) = sep.intercalate lines ++ (sep ++ line) := by
  induction lines with
  | nil => exact absurd rfl h
  | cons first lines ih =>
    cases lines with
    | nil => simp [List.intercalate_cons_cons]
    | cons second lines =>
      simp only [List.cons_append, List.intercalate_cons_cons] at ih ⊢
      rw [ih (by simp), List.append_assoc, List.append_assoc, List.append_assoc]

theorem CommentLevel.markers_prefix {line : List Char} (h : line.head? = some '#') :
    List.replicate (CommentLevel.ofLine line).markers '#' <+: line := by
  unfold CommentLevel.ofLine
  split
  · next hthree => exact List.isPrefixOf_iff_prefix.1 hthree
  · split
    · next htwo => exact List.isPrefixOf_iff_prefix.1 htwo
    · obtain ⟨rest, rfl⟩ := List.head?_eq_some_iff.1 h
      exact ⟨rest, rfl⟩

theorem Cursor.continuesComment_eq_true {level : CommentLevel} {c : Cursor}
    (h : c.continuesComment level) :
    c.peek = some '\n' ∧ List.replicate level.markers '#' <+: c.next.rest := by
  unfold Cursor.continuesComment at h
  split at h
  · next line hrest =>
    rw [Bool.and_eq_true] at h
    exact ⟨by simp [Cursor.peek, hrest],
      by simpa [Cursor.next, hrest] using List.isPrefixOf_iff_prefix.1 h.1⟩
  · simp at h

namespace CommentLevel

variable {level : CommentLevel} {written line : List Char} {content : String}

theorem Writes.not_mem (h : level.Writes written line) (hwritten : '\n' ∉ written) :
    '\n' ∉ line := by
  obtain ⟨-, rfl⟩ | rfl := h
  · simp
  · simp_all

private theorem writes_lines {texts lines : List (List Char)}
    (h : List.Forall₂ level.Writes texts lines) (htexts : ∀ text ∈ texts, '\n' ∉ text) :
    ∀ line ∈ lines, '\n' ∉ line := by
  induction h with
  | nil => simp
  | cons hwrites _ ih =>
    simp only [List.mem_cons, forall_eq_or_imp] at htexts ⊢
    exact ⟨hwrites.not_mem htexts.1, ih htexts.2⟩

/-- A comment has text, if only its markers. -/
theorem WritesAll.ne_nil {text : List Char} (h : level.WritesAll text content) : text ≠ [] := by
  rintro rfl
  obtain ⟨line, lines, hwrites, -, -⟩ := List.forall₂_cons_left_iff.1 h
  cases level <;> simp [Writes, markers] at hwrites

theorem writesAll_intercalate {texts : List (List Char)} {lines : List String}
    (h : List.Forall₂ level.Writes texts (lines.map String.toList)) (hne : texts ≠ [])
    (htexts : ∀ text ∈ texts, '\n' ∉ text) :
    level.WritesAll (['\n'].intercalate texts) ("\n".intercalate lines) := by
  have hlines := writes_lines h htexts
  have hne' : lines.map String.toList ≠ [] := by
    intro hnil
    rw [hnil] at h
    exact hne (List.forall₂_nil_right_iff.1 h)
  rw [WritesAll, String.toList_intercalate]
  change List.Forall₂ level.Writes _ ((['\n'].intercalate _).splitOn '\n')
  rw [List.splitOn_intercalate _ htexts hne, List.splitOn_intercalate _ hlines hne']
  exact h

end CommentLevel

namespace Parser

variable {source : String} {c d : Cursor} {level : CommentLevel}

theorem commentLine_writes {line : String} (hmarkers : List.replicate level.markers '#' <+: c.rest)
    (h : commentLine level c = .ok (line, d)) :
    ∃ written, c.Reads written d ∧ level.Writes written line.toList ∧ '\n' ∉ written := by
  have hreads := Cursor.reads_advance_of_prefix hmarkers
  rw [List.length_replicate] at hreads
  have hnewline : '\n' ∉ List.replicate level.markers '#' := by simp
  obtain ⟨rfl, rfl, -⟩ | ⟨hspace, rfl, rfl⟩ := commentLine_ok h
  · exact ⟨_, hreads, .inl ⟨rfl, rfl⟩, hnewline⟩
  · have htext := hreads.trans ((Cursor.reads_next_of_peek hspace).trans
      (Cursor.reads_skipWhile (· ≠ '\n') _))
    refine ⟨_, htext, .inr (by simp), ?_⟩
    simp only [List.mem_append, List.mem_singleton, not_or]
    refine ⟨hnewline, by decide, fun hmem => ?_⟩
    simpa using List.all_eq_true.1 List.all_takeWhile _ hmem

theorem comment_fills (hpeek : c.peek = some '#') (hc : c.In source.toList) {e : Entry}
    (h : comment c = .ok (e, d)) : Filled source c d [.entry e] := by
  obtain ⟨level, first, m, lines, rfl, hfirst, hlines, rfl⟩ := comment_ok h
  obtain ⟨written, hreads, hwrites, hnewline⟩ :=
    commentLine_writes (CommentLevel.markers_prefix hpeek) hfirst
  have hall := gather_induction
    (motive := fun seen d => ∃ texts : List (List Char), texts ≠ [] ∧
      c.Reads (['\n'].intercalate texts) d ∧
      List.Forall₂ (CommentLevel.ofLine c.rest).Writes texts (seen.reverse.map String.toList) ∧
      ∀ text ∈ texts, '\n' ∉ text)
    (fun seen m line d ⟨texts, hne, hreads, hwrites, hnewline⟩ hmore hrun => by
      obtain ⟨hend, hmarkers⟩ := Cursor.continuesComment_eq_true hmore
      obtain ⟨written, hline, hwritten, hnew⟩ := commentLine_writes hmarkers hrun
      refine ⟨texts ++ [written], by simp, ?_, ?_, ?_⟩
      · rw [intercalate_concat hne]
        exact hreads.trans ((Cursor.reads_next_of_peek hend).trans hline)
      · simpa using List.rel_append hwrites (.cons hwritten .nil)
      · simpa [or_imp, forall_and] using ⟨hnewline, hnew⟩)
    ⟨[written], by simp, by simpa using hreads, by simpa using hwrites, by simpa using hnewline⟩
    hlines
  obtain ⟨texts, hne, hreads, hwrites, hnewline⟩ := hall
  rw [List.reverse_reverse] at hwrites
  refine (Filled.blank hc hreads).node rfl fun text ht => ?_
  rw [ht.unique hreads]
  exact CommentLevel.writesAll_intercalate hwrites hne hnewline

-- ---------------------------------------------------------------------------
-- Messages and terms
-- ---------------------------------------------------------------------------

theorem attributeLine_fills : attributeLine.Fills source fun a => [.attribute a] := by
  intro c a d hc h
  obtain ⟨id, m, value, hid, hequals, hvalue, rfl⟩ := attributeLine_ok h
  have hblank := c.reads_skipBlank
  obtain ⟨dot, hdot⟩ := c.skipBlank.reads_next
  have hsign := m.reads_skipSpaces.trans (Cursor.reads_next_of_peek hequals)
  have hid := (identifier_fills (hdot.in (hblank.in hc)) hid).after_blank (hblank.in hc) hdot
  have hvalue := requiredPattern_fills placeable_fills (hsign.in hid.stop) hvalue
  have hrow : Filled source c.skipBlank d [.attribute ⟨id, value, c.skipBlank.spanTo d⟩] :=
    ((hid.before_blank hsign).append hvalue).node rfl fun _ _ => trivial
  exact hrow.after_blank hc hblank

theorem attributes_fills : attributes.Fills source fun as => as.map .attribute := by
  intro c as d hc h
  have hrow := gather_fills (f := fun a => [Node.attribute a])
    (fun _ _ _ _ hc _ h => attributeLine_fills hc h) (.blank hc (.refl _)) h
  rwa [← List.map_eq_flatMap] at hrow

theorem message_fills : message.Fills source fun e => [.entry e] := by
  intro c e d hc h
  obtain ⟨id, m, value, m', attrs, hid, hequals, hvalue, hattrs, -, rfl⟩ := message_ok h
  have hsign := m.reads_skipSpaces.trans (Cursor.reads_next_of_peek hequals)
  have hid := (identifier_fills hc hid).before_blank hsign
  have hvalue := hid.append (pattern?_fills placeable_fills hid.stop hvalue)
  have hrow := hvalue.append (attributes_fills hvalue.stop hattrs)
  exact Filled.node (by simpa [Node.children] using hrow) rfl fun _ _ => trivial

theorem term_fills : term.Fills source fun e => [.entry e] := by
  intro c e d hc h
  obtain ⟨id, m, value, m', attrs, hid, hequals, hvalue, hattrs, rfl⟩ := term_ok h
  obtain ⟨dash, hdash⟩ := c.reads_next
  have hsign := m.reads_skipSpaces.trans (Cursor.reads_next_of_peek hequals)
  have hid := ((identifier_fills (hdash.in hc) hid).after_blank hc hdash).before_blank hsign
  have hvalue := hid.append (pattern?_fills placeable_fills hid.stop hvalue)
  have hrow := hvalue.append (attributes_fills hvalue.stop hattrs)
  exact Filled.node (by simpa [Node.children] using hrow) rfl fun _ _ => trivial

theorem entry_fills : entry.Fills source fun e => [.entry e] := by
  intro c e d hc h
  obtain ⟨hpeek, h⟩ | ⟨-, h⟩ | h := entry_ok h
  · exact comment_fills hpeek hc h
  · exact term_fills hc h
  · exact message_fills hc h

theorem block_fills : block.Fills source fun b => [.entry b.entry] := by
  intro c b d hc h
  obtain ⟨m, hentry, -, rfl, -⟩ := block_ok h
  obtain ⟨lineEnd, hend⟩ := m.reads_next
  obtain ⟨blank, hblank⟩ := m.next.skipBlankLines_ends
  exact (entry_fills hc hentry).before_blank (hend.trans hblank.reads)

end Parser

end MessageLint
