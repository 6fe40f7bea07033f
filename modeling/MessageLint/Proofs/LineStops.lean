-- SUMMARY: Entries and variants stop at a line end or at the end of the source.
import MessageLint.Proofs.Spans.Entry

/-!
# Where entries and variants stop

Behind an entry or a variant the grammar asks for a line end. Both end with a pattern or with a line of a
comment, and these are read as far as they go: the loop over the pieces of a pattern is left at a line end or
at the end of the source only, as all of its rounds move forward (`pattern_atLineEnd`). So the check behind
them refuses nothing (`block_eq_error`, `variantLine_eq_error`).
-/

namespace MessageLint

variable {β : Type} {source : String} {c d : Cursor}

/-- The line is read, or the whole source. -/
def Cursor.AtLineEnd (c : Cursor) : Prop := c.rest = [] ∨ c.peek = some '\n'

theorem Cursor.atLineEnd_of_continuesPiece (h : c.continuesPiece = false) : c.AtLineEnd := by
  unfold continuesPiece at h
  split at h
  · next hpeek => exact .inl (by simpa [peek] using hpeek)
  · next hpeek => exact .inr hpeek
  · cases h

theorem Cursor.atLineEnd_skipWhile (c : Cursor) : (c.skipWhile (· ≠ '\n')).AtLineEnd := by
  cases hpeek : (c.skipWhile (· ≠ '\n')).peek with
  | none => exact .inl (by simpa [peek] using hpeek)
  | some ch =>
    obtain rfl : ch = '\n' := by simpa using peek_skipWhile hpeek
    exact .inr hpeek

namespace Parser

-- ---------------------------------------------------------------------------
-- Patterns
-- ---------------------------------------------------------------------------

section Patterns

variable {placeable : Parser Placeable}

/-- A placeable is at least its braces, wherever it is read. -/
theorem Fills.forward (hplaceable : placeable.Fills source fun p => [.placeable p])
    (hc : c.In source.toList) {p : Placeable} (h : placeable c = .ok (p, d)) :
    c.offset < d.offset := by
  have hfilled := hplaceable hc h
  have hsound := hfilled.row.sound List.mem_cons_self
  obtain ⟨hstart, hstop⟩ := hfilled.row.covers List.mem_cons_self
  have hlong : (Node.placeable p).span.start < (Node.placeable p).span.stop :=
    hsound.placed.start_lt_stop (by simp [Node.Shows])
  omega

/-- The loop over the pieces moves forward with each of them. -/
theorem piece_forward (hplaceable : placeable.Fills source fun p => [.placeable p])
    (hc : c.In source.toList) (hmore : c.continuesPiece) {p : Piece}
    (h : piece placeable c = .ok (p, d)) : d.rest.length < c.rest.length ∧ d.In source.toList := by
  obtain ⟨text, hne, hreads⟩ | ⟨q, hq, -⟩ := piece_moves hmore h
  · exact ⟨hreads.length_lt_of_ne_nil hne, hreads.in hc⟩
  · obtain ⟨text, hreads⟩ := (hplaceable hc hq).reads
    exact ⟨hreads.length_lt (Fills.forward hplaceable hc hq), hreads.in hc⟩

theorem pattern_atLineEnd (hplaceable : placeable.Fills source fun p => [.placeable p])
    (hc : c.In source.toList) {block : Bool} {p : Pattern}
    (h : pattern placeable block c = .ok (p, d)) : d.AtLineEnd := by
  obtain ⟨opening, m, pieces, hopening, hpieces, -⟩ := pattern_ok h
  obtain ⟨text, hreads⟩ := hopening.reads
  exact Cursor.atLineEnd_of_continuesPiece <|
    gather_stops (fun _ _ _ _ hc hmore hrun => piece_forward hplaceable hc hmore hrun) (hreads.in hc)
      hpieces

theorem pattern?_atLineEnd (hplaceable : placeable.Fills source fun p => [.placeable p])
    (hc : c.In source.toList) {p : Pattern} (h : pattern? placeable c = .ok (some p, d)) :
    d.AtLineEnd := by
  have hspaces := c.reads_skipSpaces
  obtain ⟨hnone, -⟩ | ⟨q, -, -, hq, -⟩ | ⟨q, -, -, hq, -⟩ := pattern?_ok h
  · cases hnone
  · obtain ⟨blank, hblank⟩ := c.skipSpaces.skipBlankLines_ends
    exact pattern_atLineEnd hplaceable (hblank.reads.in (hspaces.in hc)) hq
  · exact pattern_atLineEnd hplaceable (hspaces.in hc) hq

end Patterns

-- ---------------------------------------------------------------------------
-- Variants
-- ---------------------------------------------------------------------------

theorem variant_atLineEnd {nested : Nested} {seen : List Variant} {v : Variant}
    (hnested : nested.Fills source) (hc : c.In source.toList)
    (h : variant nested seen c = .ok (v, d)) : d.AtLineEnd := by
  obtain ⟨isDefault, key, value, m₁, m₂, hdefault, hopen, hkey, hclose, hvalue, -⟩ := variant_ok h
  have hm₁ : m₁.In source.toList := by
    obtain ⟨-, hstar, -, rfl⟩ | ⟨-, -, rfl⟩ := defaultMark_ok hdefault
    · exact (Cursor.reads_next_of_peek hstar).in hc
    · exact hc
  have hopen := (Cursor.reads_next_of_peek hopen).trans m₁.next.reads_skipBlank
  have hm₂ := (variantKey_fills (hopen.in hm₁) hkey).stop
  have hclose := m₂.reads_skipBlank.trans (Cursor.reads_next_of_peek hclose)
  exact pattern?_atLineEnd hnested.placeable (hclose.in hm₂) (requiredPattern_ok hvalue)

-- ---------------------------------------------------------------------------
-- Entries
-- ---------------------------------------------------------------------------

theorem attributeLine_atLineEnd {a : Attribute} (hc : c.In source.toList)
    (h : attributeLine c = .ok (a, d)) : d.AtLineEnd := by
  obtain ⟨id, m, value, hid, hequals, hvalue, -⟩ := attributeLine_ok h
  obtain ⟨dot, hdot⟩ := c.skipBlank.reads_next
  have hm := (identifier_fills (hdot.in (c.reads_skipBlank.in hc)) hid).stop
  have hequals := m.reads_skipSpaces.trans (Cursor.reads_next_of_peek hequals)
  exact pattern?_atLineEnd placeable_fills (hequals.in hm) (requiredPattern_ok hvalue)

/-- Behind a value the line is read already; without one there are attributes. -/
theorem attributes_atLineEnd {as : List Attribute} (hc : c.In source.toList)
    (hstart : c.AtLineEnd ∨ as ≠ []) (h : attributes c = .ok (as, d)) : d.AtLineEnd := by
  have hall := gather_induction
    (motive := fun seen d => d.In source.toList ∧ (c.AtLineEnd ∨ seen ≠ [] → d.AtLineEnd))
    (fun _ _ _ _ ⟨hin, _⟩ _ hrun =>
      ⟨(attributeLine_fills hin hrun).stop, fun _ => attributeLine_atLineEnd hin hrun⟩)
    ⟨hc, fun hstart => hstart.resolve_right (by simp)⟩ h
  exact hall.2 (by simpa using hstart)

theorem message_atLineEnd {e : Entry} (hc : c.In source.toList) (h : message c = .ok (e, d)) :
    d.AtLineEnd := by
  obtain ⟨id, m, value, m', attrs, hid, hequals, hvalue, hattrs, hfield, -⟩ := message_ok h
  have hequals := m.reads_skipSpaces.trans (Cursor.reads_next_of_peek hequals)
  have hm := hequals.in (identifier_fills hc hid).stop
  refine attributes_atLineEnd (pattern?_fills placeable_fills hm hvalue).stop ?_ hattrs
  cases value with
  | none => exact .inr fun hnone => hfield ⟨rfl, hnone⟩
  | some value => exact .inl (pattern?_atLineEnd placeable_fills hm hvalue)

theorem term_atLineEnd {e : Entry} (hc : c.In source.toList) (h : term c = .ok (e, d)) :
    d.AtLineEnd := by
  obtain ⟨id, m, value, m', attrs, hid, hequals, hvalue, hattrs, -⟩ := term_ok h
  obtain ⟨dash, hdash⟩ := c.reads_next
  have hequals := m.reads_skipSpaces.trans (Cursor.reads_next_of_peek hequals)
  have hm := hequals.in (identifier_fills (hdash.in hc) hid).stop
  exact attributes_atLineEnd (pattern?_fills placeable_fills hm hvalue).stop
    (.inl (pattern?_atLineEnd placeable_fills hm hvalue)) hattrs

theorem commentLine_atLineEnd {level : CommentLevel} {line : String}
    (h : commentLine level c = .ok (line, d)) : d.AtLineEnd := by
  obtain ⟨-, rfl, hend⟩ | ⟨-, -, rfl⟩ := commentLine_ok h
  · exact hend
  · exact Cursor.atLineEnd_skipWhile _

theorem comment_atLineEnd {e : Entry} (h : comment c = .ok (e, d)) : d.AtLineEnd := by
  obtain ⟨level, first, m, lines, -, hfirst, hlines, -⟩ := comment_ok h
  exact gather_induction (motive := fun _ d => d.AtLineEnd)
    (fun _ _ _ _ _ _ hrun => commentLine_atLineEnd hrun) (commentLine_atLineEnd hfirst) hlines

theorem entry_atLineEnd {e : Entry} (hc : c.In source.toList) (h : entry c = .ok (e, d)) :
    d.AtLineEnd := by
  obtain ⟨-, h⟩ | ⟨-, h⟩ | h := entry_ok h
  · exact comment_atLineEnd h
  · exact term_atLineEnd hc h
  · exact message_atLineEnd hc h

-- ---------------------------------------------------------------------------
-- Checks
-- ---------------------------------------------------------------------------

/-- The check for a line end cannot fail at one. -/
theorem lineEnd_bind_of_atLineEnd {f : Unit → Parser β} (h : c.AtLineEnd) :
    (lineEnd >>= f) c = f () c.next := by
  cases hrun : f () c.next with
  | ok r => exact lineEnd_bind_ok.2 ⟨h, hrun⟩
  | error e => exact bind_eq_error.2 (.inr ⟨(), c.next, lineEnd_ok.2 ⟨h, rfl⟩, hrun⟩)

/-- All faults of a block are faults of its entry. -/
theorem block_eq_error {e : SyntaxError} (hc : c.In source.toList) :
    block c = .error e ↔ entry c = .error e := by
  rw [block, bind_eq_error, or_iff_left]
  rintro ⟨_, d, hrun, hrest⟩
  rw [lineEnd_bind_of_atLineEnd (entry_atLineEnd hc hrun)] at hrest
  cases hrest

theorem variantLine_eq_error {nested : Nested} {seen : List Variant} {e : SyntaxError}
    (hnested : nested.Fills source) (hc : c.In source.toList) :
    variantLine nested seen c = .error e ↔ variant nested seen c = .error e := by
  rw [variantLine, bind_eq_error, or_iff_left]
  rintro ⟨_, d, hrun, hrest⟩
  rw [lineEnd_bind_of_atLineEnd (variant_atLineEnd hnested hc hrun)] at hrest
  cases hrest

end Parser

end MessageLint
