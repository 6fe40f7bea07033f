-- SUMMARY: Entries stop in front of the line end that ends their source.
import MessageLint.Proofs.Spans.Entry

/-!
# Line ends behind entries

No entry reads the last line end of a source that has one: a name, a text and a comment line stop in
front of it, and a placeable ends with its brace. So what is left behind an entry still ends a line.
-/

namespace MessageLint

/-- The rest is not empty and ends a line. -/
def EndsLine (rest : List Char) : Prop := rest.getLast? = some '\n'

section Moves

variable {c d : Cursor} {text : List Char} {ch : Char} {p : Char → Bool}

theorem EndsLine.ne_nil {rest : List Char} (h : EndsLine rest) : rest ≠ [] := by
  rintro rfl
  simp [EndsLine] at h

theorem EndsLine.of_reads (h : EndsLine c.rest) (hreads : c.Reads text d) (hne : d.rest ≠ []) :
    EndsLine d.rest := by
  rw [hreads.rest, EndsLine, List.getLast?_append_of_ne_nil _ hne] at h
  exact h

theorem EndsLine.skipWhile (h : EndsLine c.rest) (hp : p '\n' = false) :
    EndsLine (c.skipWhile p).rest := by
  refine h.of_reads (c.reads_skipWhile p) fun hnil => ?_
  have := List.dropWhile_eq_nil_iff.1 hnil '\n' (List.mem_of_getLast? h)
  rw [hp] at this
  exact absurd this (by decide)

theorem EndsLine.next (h : EndsLine c.rest) (hpeek : c.peek = some ch) (hch : ch ≠ '\n') :
    EndsLine c.next.rest := by
  have hreads := Cursor.reads_next_of_peek hpeek
  refine h.of_reads hreads fun hnil => hch ?_
  rw [hreads.rest, hnil] at h
  simpa [EndsLine] using h

theorem EndsLine.skipSpaces (h : EndsLine c.rest) : EndsLine c.skipSpaces.rest :=
  h.skipWhile rfl

/-- A line that goes on with a pattern has something on it behind its spaces. -/
theorem Cursor.rest_ne_nil_of_continuesPattern (h : c.continuesPattern) : c.skipSpaces.rest ≠ [] := by
  intro hnil
  simp [continuesPattern, peek, hnil] at h

end Moves

namespace Parser

variable {source : String} {c d : Cursor}

theorem identifier_ends {id : Identifier} (hc : EndsLine c.rest)
    (h : identifier c = .ok (id, d)) : EndsLine d.rest := by
  obtain ⟨-, rfl, -⟩ := identifier_ok h
  exact hc.skipWhile (by decide)

theorem placeable_ends {p : Placeable} (hin : c.In source.toList) (hc : EndsLine c.rest)
    (h : Parser.placeable c = .ok (p, d)) : EndsLine d.rest := by
  have hfilled := placeable_fills hin h
  obtain ⟨text, hreads⟩ := hfilled.reads
  obtain ⟨shown, hslice, inner, hshown⟩ := (hfilled.row.sound List.mem_cons_self).placed.shows
  rw [placeable_eq] at h
  obtain ⟨e, m, -, -, -, -, rfl⟩ := placeableWith_ok h
  obtain rfl : text = shown := Option.some.inj ((hreads.slice? hin).symm.trans hslice)
  refine hc.of_reads hreads fun hnil => ?_
  rw [hreads.rest, hnil, List.append_nil, hshown, EndsLine, List.getLast?_concat] at hc
  exact absurd hc (by decide)

theorem piece_ends {p : Piece} (hin : c.In source.toList) (hc : EndsLine c.rest)
    (hmore : c.continuesPiece) (h : piece Parser.placeable c = .ok (p, d)) : EndsLine d.rest := by
  obtain ⟨hpeek, rfl, -⟩ | ⟨q, -, hq, -⟩ | ⟨-, -, -, rfl, -⟩ := piece_ok h
  · -- the line that goes on with the pattern has something on it
    obtain ⟨blank, hblank⟩ := c.skipBlankLines_ends
    refine hc.of_reads (hblank.reads.trans (Cursor.reads_skipSpaces _)) fun hnil => ?_
    have hcontinues : c.skipBlankLines.2.continuesPattern := by
      simpa [Cursor.continuesPiece, hpeek] using hmore
    exact Cursor.rest_ne_nil_of_continuesPattern hcontinues hnil
  · exact placeable_ends hin hc hq
  · exact hc.skipWhile (by decide)

theorem pattern_ends {block : Bool} {p : Pattern} (hin : c.In source.toList) (hc : EndsLine c.rest)
    (h : pattern Parser.placeable block c = .ok (p, d)) : EndsLine d.rest := by
  obtain ⟨opening, m, pieces, hopening, hpieces, -⟩ := pattern_ok h
  have hm : m.In source.toList ∧ EndsLine m.rest := by
    cases block with
    | true =>
      obtain ⟨rfl, -⟩ := hopening
      exact ⟨c.reads_skipSpaces.in hin, hc.skipSpaces⟩
    | false =>
      obtain ⟨rfl, -⟩ := hopening
      exact ⟨hin, hc⟩
  exact (gather_induction (motive := fun _ d => d.In source.toList ∧ EndsLine d.rest)
    (fun _ _ _ _ ⟨hin, hc⟩ hmore hrun =>
      ⟨(piece_fills 0 placeable_fills hin hrun).stop, piece_ends hin hc hmore hrun⟩) hm hpieces).2

theorem pattern?_ends {p : Option Pattern} (hin : c.In source.toList) (hc : EndsLine c.rest)
    (h : pattern? Parser.placeable c = .ok (p, d)) : EndsLine d.rest := by
  have hspaces := c.reads_skipSpaces
  obtain ⟨-, rfl, -⟩ | ⟨q, -, hcontinues, hq, -⟩ | ⟨q, -, -, hq, -⟩ := pattern?_ok h
  · exact hc
  · obtain ⟨blank, hblank⟩ := c.skipSpaces.skipBlankLines_ends
    have hreads := hspaces.trans hblank.reads
    refine pattern_ends (hreads.in hin) (hc.of_reads hreads fun hnil => ?_) hq
    exact Cursor.rest_ne_nil_of_continuesPattern hcontinues
      ((Cursor.reads_skipSpaces _).rest_eq_nil hnil)
  · exact pattern_ends (hspaces.in hin) hc.skipSpaces hq

theorem attributeLine_ends {a : Attribute} (hin : c.In source.toList) (hc : EndsLine c.rest)
    (hmore : c.skipBlank.peek = some '.') (h : attributeLine c = .ok (a, d)) : EndsLine d.rest := by
  obtain ⟨id, m, value, hid, hequals, hvalue, -⟩ := attributeLine_ok h
  have hblank := c.reads_skipBlank
  have hdot := Cursor.reads_next_of_peek hmore
  obtain ⟨r, hr⟩ := Cursor.peek_eq_some.1 hmore
  have hm := identifier_ends ((hc.of_reads hblank (by simp [hr])).next hmore (by decide)) hid
  have hin := (identifier_fills (hdot.in (hblank.in hin)) hid).stop
  have hequals' := Cursor.reads_next_of_peek hequals
  exact pattern?_ends (hequals'.in (m.reads_skipSpaces.in hin))
    (hm.skipSpaces.next hequals (by decide)) (requiredPattern_ok hvalue)

theorem attributes_ends {as : List Attribute} (hin : c.In source.toList) (hc : EndsLine c.rest)
    (h : attributes c = .ok (as, d)) : EndsLine d.rest :=
  (gather_induction (motive := fun _ d => d.In source.toList ∧ EndsLine d.rest)
    (fun _ _ _ _ ⟨hin, hc⟩ hmore hrun =>
      ⟨(attributeLine_fills hin hrun).stop, attributeLine_ends hin hc (by simpa using hmore) hrun⟩)
    ⟨hin, hc⟩ h).2

theorem commentLine_ends {level : CommentLevel} {line : String}
    (hmarkers : List.replicate level.markers '#' <+: c.rest) (hc : EndsLine c.rest)
    (h : commentLine level c = .ok (line, d)) : EndsLine d.rest := by
  have hreads := Cursor.reads_advance_of_prefix hmarkers
  rw [List.length_replicate] at hreads
  have hm : EndsLine (c.advance level.markers).rest := by
    refine hc.of_reads hreads fun hnil => ?_
    rw [hreads.rest, hnil, List.append_nil, EndsLine] at hc
    exact absurd (List.mem_of_getLast? hc) (by simp)
  obtain ⟨-, rfl, -⟩ | ⟨hspace, -, rfl⟩ := commentLine_ok h
  · exact hm
  · exact (hm.next hspace (by decide)).skipWhile (by decide)

theorem comment_ends {e : Entry} (hpeek : c.peek = some '#') (hc : EndsLine c.rest)
    (h : comment c = .ok (e, d)) : EndsLine d.rest := by
  obtain ⟨level, first, m, lines, rfl, hfirst, hlines, -⟩ := comment_ok h
  refine gather_induction (motive := fun _ d => EndsLine d.rest)
    (fun _ m _ d hm hmore hrun => ?_)
    (commentLine_ends (CommentLevel.markers_prefix hpeek) hc hfirst) hlines
  obtain ⟨hend, hmarkers⟩ := Cursor.continuesComment_eq_true hmore
  refine commentLine_ends hmarkers (hm.of_reads (Cursor.reads_next_of_peek hend) fun hnil => ?_) hrun
  rw [hnil, List.prefix_nil] at hmarkers
  cases hlevel : CommentLevel.ofLine c.rest <;> simp [hlevel, CommentLevel.markers] at hmarkers

theorem message_ends {e : Entry} (hin : c.In source.toList) (hc : EndsLine c.rest)
    (h : message c = .ok (e, d)) : EndsLine d.rest := by
  obtain ⟨id, m, value, m', attrs, hid, hequals, hvalue, hattrs, -, -⟩ := message_ok h
  have hm := (identifier_ends hc hid).skipSpaces.next hequals (by decide)
  have hin := (identifier_fills hin hid).stop
  have hin := (Cursor.reads_next_of_peek hequals).in (m.reads_skipSpaces.in hin)
  exact attributes_ends (pattern?_fills placeable_fills hin hvalue).stop (pattern?_ends hin hm hvalue)
    hattrs

theorem term_ends {e : Entry} (hin : c.In source.toList) (hpeek : c.peek = some '-')
    (hc : EndsLine c.rest) (h : term c = .ok (e, d)) : EndsLine d.rest := by
  obtain ⟨id, m, value, m', attrs, hid, hequals, hvalue, hattrs, -⟩ := term_ok h
  have hm := (identifier_ends (hc.next hpeek (by decide)) hid).skipSpaces.next hequals (by decide)
  have hin := (identifier_fills ((Cursor.reads_next_of_peek hpeek).in hin) hid).stop
  have hin := (Cursor.reads_next_of_peek hequals).in (m.reads_skipSpaces.in hin)
  exact attributes_ends (pattern?_fills placeable_fills hin hvalue).stop (pattern?_ends hin hm hvalue)
    hattrs

theorem entry_ends {e : Entry} (hin : c.In source.toList) (hc : EndsLine c.rest)
    (h : entry c = .ok (e, d)) : EndsLine d.rest := by
  obtain ⟨hpeek, h⟩ | ⟨hpeek, h⟩ | h := entry_ok h
  · exact comment_ends hpeek hc h
  · exact term_ends hin hpeek hc h
  · exact message_ends hin hc h

end Parser

end MessageLint
