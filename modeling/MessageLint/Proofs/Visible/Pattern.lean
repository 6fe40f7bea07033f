-- SUMMARY: The elements of a pattern lie where they were read, and their texts show what stands there.
import MessageLint.Proofs.WellFormed.Pattern

/-!
# Visible text

What a text shows of the source is its ink, that is everything but spaces and line ends, and how many
line ends there are. A pattern is read as pieces that stand one right behind the other (`Piece.Tiles`).
The elements made of them lie in the same places, with nothing but blanks outside (`Element.Lie`):
removing the indentation drops spaces only, joining takes in at most the spaces between two texts, and
trimming reaches no line end, because behind the last line end there is always something to see
(`Piece.Followed`).
-/

namespace MessageLint

variable {source : String} {c d m : Cursor} {ch : Char} {text more : List Char}

-- ---------------------------------------------------------------------------
-- What a text shows
-- ---------------------------------------------------------------------------

/-- Everything but spaces and line ends. -/
def ink (text : List Char) : List Char := text.filter fun ch => !Cursor.isBlank ch

theorem ink_append (text more : List Char) : ink (text ++ more) = ink text ++ ink more :=
  List.filter_append ..

theorem ink_eq_nil_iff : ink text = [] ↔ ∀ ch ∈ text, Cursor.isBlank ch := by
  simp [ink, List.filter_eq_nil_iff]

theorem ink_spaces (h : ∀ ch ∈ text, ch = ' ') : ink text = [] := by
  rw [ink_eq_nil_iff]
  intro ch hch
  rw [h ch hch]
  rfl

theorem eq_space_of_mem_takeWhile (h : ch ∈ text.takeWhile Cursor.isSpace) : ch = ' ' :=
  Cursor.eq_space_of_isSpace (List.mem_takeWhile_imp h)

/-- A value shows a stretch of the source: it has the same ink, and as many line ends. -/
structure Depicts (text value : List Char) : Prop where
  ink : ink value = ink text
  lines : value.count '\n' = text.count '\n'

namespace Depicts

variable {value value' : List Char}

theorem refl (text : List Char) : Depicts text text := ⟨rfl, rfl⟩

theorem append (h : Depicts text value) (k : Depicts more value') :
    Depicts (text ++ more) (value ++ value') := by
  constructor
  · rw [ink_append, ink_append, h.ink, k.ink]
  · rw [List.count_append, List.count_append, h.lines, k.lines]

/-- Spaces in front of a stretch show nothing. -/
theorem after_spaces {gap : List Char} (hgap : ∀ ch ∈ gap, ch = ' ') (h : Depicts text value) :
    Depicts (gap ++ text) value := by
  constructor
  · rw [h.ink, ink_append, ink_spaces hgap, List.nil_append]
  · rw [h.lines, List.count_append, count_newline_of_spaces hgap, Nat.zero_add]

end Depicts

/-- No line end stands among the blanks at the end of a text. -/
def Settled (value : List Char) : Prop := '\n' ∉ value.rtakeWhile Cursor.isBlank

theorem settled_of_notMem (h : '\n' ∉ text) : Settled text :=
  fun hline => h ((List.rtakeWhile_suffix _ _).subset hline)

theorem Settled.notMem (h : Settled text) (hblank : ∀ ch ∈ text, Cursor.isBlank ch) : '\n' ∉ text := by
  unfold Settled at h
  rwa [List.rtakeWhile_eq_self_iff.2 hblank] at h

/-- Something to see keeps the blanks in front of it from the end of a text. -/
theorem Settled.append (h : Settled more) (hink : ∃ ch ∈ more, Cursor.isBlank ch = false) :
    Settled (text ++ more) := by
  unfold Settled at h ⊢
  have hshort : (more.reverse.takeWhile Cursor.isBlank).length ≠ more.reverse.length := fun hlength => by
    obtain ⟨ch, hch, hblank⟩ := hink
    have hall := List.takeWhile_eq_self_iff.1
      ((List.takeWhile_prefix Cursor.isBlank).eq_of_length hlength) ch (List.mem_reverse.2 hch)
    simp [hall] at hblank
  rwa [List.rtakeWhile, List.reverse_append, List.takeWhile_append, if_neg hshort]

/-- Texts are settled together if something to see stands behind a line end of the first. -/
theorem settled_append (h : Settled more)
    (hink : '\n' ∈ text → ∃ ch ∈ more, Cursor.isBlank ch = false) : Settled (text ++ more) := by
  by_cases hmore : ∃ ch ∈ more, Cursor.isBlank ch = false
  · exact h.append hmore
  · have hblank : ∀ ch ∈ more, Cursor.isBlank ch := by simpa using hmore
    refine settled_of_notMem fun hmem => ?_
    exact (List.mem_append.1 hmem).elim (fun hmem => hmore (hink hmem)) (h.notMem hblank)

/-- Trimming a settled text takes nothing from what it shows. -/
theorem Depicts.trim {value : String} (h : Depicts text value.toList) (hvalue : Settled value.toList) :
    Depicts text (Element.trimEnd value).toList := by
  have hsplit : (Element.trimEnd value).toList ++ value.toList.rtakeWhile Cursor.isBlank =
      value.toList := by rw [Element.toList_trimEnd, List.rdropWhile_append_rtakeWhile]
  have hink : MessageLint.ink (value.toList.rtakeWhile Cursor.isBlank) = [] :=
    ink_eq_nil_iff.2 fun ch => List.mem_rtakeWhile_imp
  have hlines := List.count_eq_zero.2 hvalue
  rw [← hsplit] at h
  constructor
  · rw [← h.ink, ink_append, hink, List.append_nil]
  · rw [← h.lines, List.count_append, hlines, Nat.add_zero]

-- ---------------------------------------------------------------------------
-- Pieces
-- ---------------------------------------------------------------------------

namespace Piece

variable {p : Piece} {ps : List Piece}

/-- The piece was read from `text`, which stands between the two cursors. -/
def Stands (c : Cursor) (text : List Char) (d : Cursor) : Piece → Prop
  | .indent newlines _ span => span = c.spanTo d ∧ ink text = [] ∧ text.count '\n' = newlines
  | .text t => t.span = c.spanTo d ∧ t.value.toList = text ∧ '\n' ∉ text
  | .placeable q => q.span = c.spanTo d

/-- The pieces stand one right behind the other, from the first cursor to the last. -/
def Tiles : Cursor → List Piece → Cursor → Prop
  | c, [], d => c = d
  | c, p :: ps, d => ∃ text m, c.Reads text m ∧ p.Stands c text m ∧ Tiles m ps d

theorem Tiles.nil (c : Cursor) : Tiles c [] c := rfl

theorem Tiles.concat (h : Tiles c ps m) (hreads : m.Reads text d) (hp : p.Stands m text d) :
    Tiles c (ps ++ [p]) d := by
  induction ps generalizing c with
  | nil =>
    obtain rfl : c = m := h
    exact ⟨text, d, hreads, hp, rfl⟩
  | cons q ps ih =>
    obtain ⟨first, n, hfirst, hq, hrest⟩ := h
    exact ⟨first, n, hfirst, hq, ih hrest⟩

theorem Tiles.notMem_newline (h : Tiles c ps d) {t : TextElement} (ht : .text t ∈ ps) :
    '\n' ∉ t.value.toList := by
  induction ps generalizing c with
  | nil => simp at ht
  | cons p ps ih =>
    obtain ⟨text, m, -, hp, hrest⟩ := h
    rcases List.mem_cons.1 ht with rfl | ht
    · obtain ⟨-, rfl, hline⟩ := hp
      exact hline
    · exact ih hrest ht

/-- Behind every indentation there is something to see. -/
def Followed : List Piece → Prop
  | [] => True
  | p :: ps => (∀ newlines spaces span, p = .indent newlines spaces span →
      ∃ q, ps.head? = some q ∧ q.Inked) ∧ Followed ps

/-- Pieces from a place on: each indentation is followed, and what stands there is to be seen first. -/
structure FollowedFrom (c : Cursor) (ps : List Piece) : Prop where
  followed : Followed ps
  head : ∀ ch, c.peek = some ch → Cursor.isBlank ch = false → ∃ q, ps.head? = some q ∧ q.Inked

end Piece

-- ---------------------------------------------------------------------------
-- Elements
-- ---------------------------------------------------------------------------

namespace Element

variable {e : Element} {es : List Element}

/-- The element stands between the two cursors, and a text depicts what stands there. -/
def Stands (c : Cursor) (text : List Char) (d : Cursor) : Element → Prop
  | .text t => t.span = c.spanTo d ∧ Depicts text t.value.toList
  | .placeable q => q.span = c.spanTo d

theorem Stands.span (h : e.Stands c text d) : e.span = c.spanTo d := by
  cases e with
  | text t => exact h.1
  | placeable q => exact h

/-- The elements lie in order between the two cursors, with spaces in front of them and between them,
and blanks behind them. -/
def Lie : Cursor → List Element → Cursor → Prop
  | c, [], d => ∃ gap, c.Reads gap d ∧ ∀ ch ∈ gap, Cursor.isBlank ch
  | c, e :: es, d => ∃ gap m text n, c.Reads gap m ∧ (∀ ch ∈ gap, ch = ' ') ∧
      m.Reads text n ∧ e.Stands m text n ∧ Lie n es d

theorem Lie.after_spaces {gap : List Char} (hreads : c.Reads gap m) (hgap : ∀ ch ∈ gap, ch = ' ')
    (h : Lie m es d) : Lie c es d := by
  cases es with
  | nil =>
    obtain ⟨gap', hreads', hgap'⟩ := h
    refine ⟨gap ++ gap', hreads.trans hreads', fun ch hch => ?_⟩
    rcases List.mem_append.1 hch with hch | hch
    · rw [hgap ch hch]
      rfl
    · exact hgap' ch hch
  | cons e es =>
    obtain ⟨gap', n, text, n', hreads', hgap', htext, he, hes⟩ := h
    exact ⟨gap ++ gap', n, text, n', hreads.trans hreads',
      fun ch hch => (List.mem_append.1 hch).elim (hgap ch) (hgap' ch), htext, he, hes⟩

theorem Lie.cons (hreads : c.Reads text m) (he : e.Stands c text m) (h : Lie m es d) :
    Lie c (e :: es) d :=
  ⟨[], c, text, m, .refl c, List.forall_mem_nil _, hreads, he, h⟩

-- Removing the indentation

theorem lie_dedent (common : Nat) {ps : List Piece} (h : Piece.Tiles c ps d) :
    Lie c (ps.filterMap (Piece.dedent common)) d := by
  induction ps generalizing c with
  | nil =>
    obtain rfl : c = d := h
    exact ⟨[], .refl c, List.forall_mem_nil _⟩
  | cons p ps ih =>
    obtain ⟨text, m, hreads, hp, hrest⟩ := h
    have hrest := ih hrest
    cases p with
    | placeable q => exact hrest.cons hreads hp
    | text t =>
      obtain ⟨hspan, rfl, -⟩ := hp
      exact hrest.cons hreads ⟨hspan, .refl _⟩
    | indent newlines spaces span =>
      obtain ⟨rfl, hink, hcount⟩ := hp
      have hblank := ink_eq_nil_iff.1 hink
      rw [List.filterMap_cons, Piece.dedent]
      by_cases hdropped : newlines = 0 ∧ spaces - common = 0
      · -- only spaces are dropped, for they hold no line end
        rw [if_pos hdropped]
        refine hrest.after_spaces hreads fun ch hch => ?_
        have hline : ch ≠ '\n' := by
          rintro rfl
          exact List.count_eq_zero.1 (hcount.trans hdropped.1) hch
        simpa [Cursor.isBlank, hline] using hblank ch hch
      · rw [if_neg hdropped]
        refine hrest.cons hreads ⟨rfl, ?_, ?_⟩
        · rw [hink, ink_eq_nil_iff, String.toList_ofList]
          simp only [List.mem_append, List.mem_replicate]
          rintro ch (⟨-, rfl⟩ | ⟨-, rfl⟩) <;> rfl
        · simp [hcount, List.count_replicate]

-- Joining

theorem lie_joinOnto {gap : List Char} (hgap : c.Reads gap m) (hspaces : ∀ ch ∈ gap, ch = ' ')
    {n : Cursor} (hreads : m.Reads text n) (he : e.Stands m text n) (h : Lie n es d) :
    Lie c (joinOnto e es) d := by
  unfold joinOnto
  split
  · next a b es =>
    obtain ⟨gap', m', text', n', hgap', hspaces', hreads', ⟨hspan', hb⟩, hes⟩ := h
    obtain ⟨hspan, ha⟩ := he
    have hjoined := hreads.trans (hgap'.trans hreads')
    refine ⟨gap, m, _, n', hgap, hspaces, hjoined, ⟨?_, ?_⟩, hes⟩
    · have := hreads.le
      have := hgap'.le
      have := hreads'.le
      simp only [hspan, hspan', Span.extend, Cursor.spanTo, Span.mk.injEq]
      omega
    · rw [String.toList_append]
      exact ha.append (hb.after_spaces hspaces')
  · exact ⟨gap, m, text, n, hgap, hspaces, hreads, he, h⟩

theorem lie_join (h : Lie c es d) : Lie c (join es) d := by
  induction es generalizing c with
  | nil => exact h
  | cons e es ih =>
    obtain ⟨gap, m, text, n, hgap, hspaces, hreads, he, hes⟩ := h
    exact lie_joinOnto hgap hspaces hreads he (ih hes)

-- Trimming

/-- A text with a line end stands in front of something to see. -/
def Followed : List Element → Prop
  | [] => True
  | e :: es => (∀ t, e = .text t → '\n' ∈ t.value.toList → ∃ k, es.head? = some k ∧ k.Inked) ∧
      Followed es

theorem followed_dedent (common : Nat) {ps : List Piece} (h : Piece.Followed ps)
    (htexts : ∀ t, .text t ∈ ps → '\n' ∉ t.value.toList) :
    Followed (ps.filterMap (Piece.dedent common)) := by
  induction ps with
  | nil => trivial
  | cons p ps ih =>
    have hrest := ih h.2 fun t ht => htexts t (List.mem_cons_of_mem _ ht)
    cases hdedent : p.dedent common with
    | none => rwa [List.filterMap_cons_none hdedent]
    | some e =>
      rw [List.filterMap_cons_some hdedent]
      refine ⟨fun t ht hline => ?_, hrest⟩
      subst ht
      cases p with
      | placeable q => simp [Piece.dedent] at hdedent
      | text t' =>
        obtain rfl : t' = t := by simpa [Piece.dedent] using hdedent
        exact absurd hline (htexts t' List.mem_cons_self)
      | indent newlines spaces span =>
        obtain ⟨q, hq, hinked⟩ := h.1 newlines spaces span rfl
        obtain ⟨ps, rfl⟩ := List.head?_eq_some_iff.1 hq
        obtain ⟨k, hk, hinked, -⟩ := Piece.inked_dedent common hinked
        exact ⟨k, by rw [List.filterMap_cons_some hk]; rfl, hinked⟩

/-- What is to be seen first is still there once texts are joined. -/
theorem inked_head_join {k : Element} (hk : es.head? = some k) (hinked : k.Inked) :
    ∃ k', (join es).head? = some k' ∧ k'.Inked := by
  obtain ⟨es, rfl⟩ := List.head?_eq_some_iff.1 hk
  change ∃ k', (joinOnto k (join es)).head? = some k' ∧ k'.Inked
  unfold joinOnto
  split
  · obtain ⟨ch, hch, hblank⟩ := hinked
    exact ⟨_, rfl, ch, by simp [hch], hblank⟩
  · exact ⟨_, rfl, hinked⟩

/-- Behind the last line end of the last text there is something to see. -/
theorem settled_join (h : Followed es) {t : TextElement} (ht : (join es).getLast? = some (.text t)) :
    Settled t.value.toList := by
  induction es generalizing t with
  | nil => simp [join] at ht
  | cons e es ih =>
    obtain ⟨he, hes⟩ := h
    change (joinOnto e (join es)).getLast? = _ at ht
    -- a line end in `e` would be followed by something to see, at the head of what was joined
    have hline : ∀ a, e = .text a → '\n' ∈ a.value.toList →
        ∃ k, (join es).head? = some k ∧ k.Inked := fun a ha hmem => by
      obtain ⟨k, hk, hinked⟩ := he a ha hmem
      exact inked_head_join hk hinked
    cases hjoin : join es with
    | nil =>
      obtain rfl : e = .text t := by cases e <;> simp_all [joinOnto]
      refine settled_of_notMem fun hmem => ?_
      obtain ⟨k, hk, -⟩ := hline t rfl hmem
      simp [hjoin] at hk
    | cons k rest =>
      have hrest : ∀ t, (k :: rest).getLast? = some (.text t) → Settled t.value.toList :=
        fun t ht => ih hes (by rwa [hjoin])
      rw [hjoin] at ht hline
      cases e with
      | placeable q => exact hrest t (by rwa [joinOnto, List.getLast?_cons_cons] at ht; simp)
      | text a =>
        cases k with
        | placeable q => exact hrest t (by rwa [joinOnto, List.getLast?_cons_cons] at ht; simp)
        | text b =>
          cases rest with
          | cons k' rest =>
            rw [joinOnto, List.getLast?_cons_cons] at ht
            exact hrest t (by rwa [List.getLast?_cons_cons])
          | nil =>
            obtain rfl : TextElement.mk _ _ = t := by simpa [joinOnto] using ht
            rw [String.toList_append]
            refine settled_append (hrest b rfl) fun hmem => ?_
            obtain ⟨k, hk, hinked⟩ := hline a rfl hmem
            obtain rfl := Option.some.inj hk
            exact hinked

/-- Trimming makes the blanks behind the last element wider at most. -/
theorem lie_trimLast (hlast : ∀ t, es.getLast? = some (.text t) → Settled t.value.toList) :
    ∀ {c}, Lie c es d → Lie c (trimLast es) d := by
  fun_induction trimLast es with
  | case1 => exact id
  | case2 t value hempty =>
    rintro c ⟨gap, m, text, n, hgap, hspaces, hreads, ⟨-, hdepicts⟩, gap', hgap', hblank'⟩
    have hblank : ∀ ch ∈ text, Cursor.isBlank ch := by
      rw [← ink_eq_nil_iff, ← hdepicts.ink, ink_eq_nil_iff, ← List.rdropWhile_eq_nil_iff,
        ← toList_trimEnd, String.toList_eq_nil_iff, ← String.isEmpty_iff]
      exact hempty
    refine ⟨gap ++ (text ++ gap'), hgap.trans (hreads.trans hgap'), fun ch hch => ?_⟩
    simp only [List.mem_append] at hch
    rcases hch with hch | hch | hch
    · rw [hspaces ch hch]
      rfl
    · exact hblank ch hch
    · exact hblank' ch hch
  | case3 t =>
    rintro c ⟨gap, m, text, n, hgap, hspaces, hreads, ⟨hspan, hdepicts⟩, hrest⟩
    exact ⟨gap, m, text, n, hgap, hspaces, hreads, ⟨hspan, hdepicts.trim (hlast t rfl)⟩, hrest⟩
  | case4 e es hne ih =>
    rintro c ⟨gap, m, text, n, hgap, hspaces, hreads, he, hes⟩
    have hrest : ∀ t, es.getLast? = some (.text t) → Settled t.value.toList := fun t ht => by
      refine hlast t ?_
      cases es with
      | nil => simp at ht
      | cons k es => rwa [List.getLast?_cons_cons]
    exact ⟨gap, m, text, n, hgap, hspaces, hreads, he, ih hrest hes⟩

end Element

/-- The elements of pieces lie where the pieces stand. -/
theorem Piece.lie_elements {ps : List Piece} (h : Tiles c ps d) (hfollowed : Followed ps) :
    Element.Lie c (elements ps) d :=
  have hdedented := Element.followed_dedent (commonIndent ps) hfollowed fun _ => h.notMem_newline
  Element.lie_trimLast (fun _ => Element.settled_join hdedented)
    (Element.lie_join (Element.lie_dedent _ h))

-- ---------------------------------------------------------------------------
-- Reading
-- ---------------------------------------------------------------------------

namespace Parser

variable {placeable : Parser Placeable} {p : Piece}

/-- Each placeable that is read in the source has the span of what was read, which is not nothing. -/
def Spans (source : String) (placeable : Parser Placeable) : Prop :=
  ∀ ⦃c q d⦄, c.In source.toList → placeable c = .ok (q, d) →
    (∃ text, text ≠ [] ∧ c.Reads text d) ∧ q.span = c.spanTo d

theorem piece_stands (hplaceable : placeable.Spans source) (hc : c.In source.toList)
    (hmore : c.continuesPiece) (h : piece placeable c = .ok (p, d)) :
    ∃ text, text ≠ [] ∧ c.Reads text d ∧ p.Stands c text d := by
  obtain ⟨hline, rfl, rfl⟩ | ⟨q, -, hq, rfl⟩ | ⟨hline, hopen, hclose, rfl, rfl⟩ := piece_ok h
  · obtain ⟨lines, hlines⟩ := c.skipBlankLines_ends
    have hspaces := c.skipBlankLines.2.reads_skipSpaces
    have hall : ∀ ch ∈ c.skipBlankLines.2.rest.takeWhile Cursor.isSpace, ch = ' ' :=
      fun ch => eq_space_of_mem_takeWhile
    refine ⟨_, ?_, hlines.reads.trans hspaces, rfl, ?_, ?_⟩
    · exact List.append_ne_nil_of_left_ne_nil (hlines.ne_nil hline) _
    · rw [ink_append, ink_eq_nil_iff.2 hlines.blank, ink_spaces hall, List.append_nil]
    · rw [List.count_append, ← hlines.count, count_newline_of_spaces hall, Nat.add_zero]
  · obtain ⟨⟨text, hne, hreads⟩, hspan⟩ := hplaceable hc hq
    exact ⟨text, hne, hreads, hspan⟩
  · obtain ⟨ch, hpeek⟩ : ∃ ch, c.peek = some ch := by
      cases hpeek : c.peek with
      | none => simp [Cursor.continuesPiece, hpeek] at hmore
      | some ch => exact ⟨ch, rfl⟩
    obtain ⟨r, hr⟩ := Cursor.peek_eq_some.1 hpeek
    have htext : isPatternText ch := by simp_all [isPatternText]
    refine ⟨_, by simp [hr, htext], c.reads_skipWhile isPatternText, rfl, String.toList_ofList,
      fun hmem => ?_⟩
    exact absurd (List.mem_takeWhile_imp hmem) (by decide)

/-- Behind an indentation stands what continues the pattern. -/
theorem piece_indent_peek {newlines spaces : Nat} {span : Span} (hmore : c.continuesPiece)
    (h : piece placeable c = .ok (.indent newlines spaces span, d)) :
    ∃ ch, d.peek = some ch ∧ Cursor.isBlank ch = false := by
  obtain ⟨hline, rfl, -⟩ | ⟨q, -, -, hp⟩ | ⟨-, -, -, -, hp⟩ := piece_ok h
  · have hcontinues : c.skipBlankLines.2.continuesPattern := by
      simpa [Cursor.continuesPiece, hline] using hmore
    exact Cursor.opensPattern_of_continues hcontinues
  · cases hp
  · cases hp

/-- Behind an indentation that a loop reads there is something to see, and so there is at its start if
something stands there. This is so whatever placeables are. -/
theorem gather_followed {opening pieces : List Piece}
    (h : gather (fun _ c => c.continuesPiece) (fun _ => piece placeable) opening m = .ok (pieces, d)) :
    ∃ new, pieces = opening.reverse ++ new ∧ Piece.FollowedFrom m new := by
  refine gather_suffixes (I := fun _ => True) (P := Piece.FollowedFrom)
    (fun c _ hstop => ⟨trivial, fun ch hpeek hch => ?_⟩)
    (fun c p d _ hmore hrun hstay => ⟨⟨fun newlines spaces span hp => ?_, trivial⟩,
      fun ch hpeek hch => ⟨p, rfl, piece_inked hpeek hch hrun⟩⟩)
    (fun c p d _ hmore hrun _ => ⟨trivial, fun ps hps =>
      ⟨⟨fun newlines spaces span hp => ?_, hps.followed⟩,
        fun ch hpeek hch => ⟨p, rfl, piece_inked hpeek hch hrun⟩⟩⟩)
    trivial h
  · simp [Cursor.continuesPiece_of_peek hpeek hch] at hstop
  · -- an indentation has at least its line end, so this one would have moved forward
    obtain ⟨text, hne, hreads⟩ | ⟨q, -, hq⟩ := piece_moves hmore hrun
    · exact absurd (hreads.length_lt_of_ne_nil hne) hstay
    · cases hp.symm.trans hq
  · subst hp
    obtain ⟨ch, hpeek, hch⟩ := piece_indent_peek hmore hrun
    exact hps.head ch hpeek hch

/-- The indentation that opens a block is followed as well. -/
theorem OpeningAt.followed {block : Bool} {opening pieces : List Piece}
    (hopening : OpeningAt c block opening m) (hopens : c.OpensPattern block)
    (h : gather (fun _ c => c.continuesPiece) (fun _ => piece placeable) opening m = .ok (pieces, d)) :
    Piece.Followed pieces := by
  obtain ⟨ch, hpeek, hch⟩ := hopening.peek hopens
  obtain ⟨new, rfl, hnew⟩ := gather_followed h
  cases block with
  | false =>
    obtain ⟨-, rfl⟩ := hopening
    exact hnew.followed
  | true =>
    obtain ⟨-, rfl⟩ := hopening
    exact ⟨fun _ _ _ _ => hnew.head ch hpeek hch, hnew.followed⟩

theorem OpeningAt.tiles {block : Bool} {opening : List Piece} (h : OpeningAt c block opening m) :
    Piece.Tiles c opening.reverse m := by
  cases block with
  | false =>
    obtain ⟨rfl, rfl⟩ := h
    exact .nil _
  | true =>
    obtain ⟨rfl, rfl⟩ := h
    have hall : ∀ ch ∈ c.rest.takeWhile Cursor.isSpace, ch = ' ' := fun ch => eq_space_of_mem_takeWhile
    exact ⟨_, _, c.reads_skipSpaces, ⟨rfl, ink_spaces hall, count_newline_of_spaces hall⟩, rfl⟩

/-- The pieces that a loop reads stand one behind the other. -/
theorem gather_pieces {opening pieces : List Piece} (hplaceable : placeable.Spans source)
    (hm : m.In source.toList) (hopening : Piece.Tiles c opening.reverse m)
    (h : gather (fun _ c => c.continuesPiece) (fun _ => piece placeable) opening m = .ok (pieces, d)) :
    Piece.Tiles c pieces d := by
  have htiles := gather_induction
    (motive := fun seen d => d.In source.toList ∧ Piece.Tiles c seen.reverse d)
    (fun seen m p d ⟨hm, hseen⟩ hmore hrun => by
      obtain ⟨text, -, hreads, hp⟩ := piece_stands hplaceable hm hmore hrun
      rw [List.reverse_cons]
      exact ⟨hreads.in hm, hseen.concat hreads hp⟩)
    ⟨hm, hopening⟩ h
  rw [List.reverse_reverse] at htiles
  exact htiles.2

/-- The elements of a pattern lie in what it was read from. -/
theorem pattern_lie {block : Bool} {q : Pattern} (hplaceable : placeable.Spans source)
    (hc : c.In source.toList) (hopens : c.OpensPattern block)
    (h : pattern placeable block c = .ok (q, d)) :
    q.span = c.spanTo d ∧ Element.Lie c q.elements d := by
  obtain ⟨opening, m, pieces, hopening, hpieces, rfl⟩ := pattern_ok h
  obtain ⟨text, hreads⟩ := hopening.reads
  have htiles := gather_pieces hplaceable (hreads.in hc) hopening.tiles hpieces
  exact ⟨rfl, Piece.lie_elements htiles (hopening.followed hopens hpieces)⟩

end Parser

-- ---------------------------------------------------------------------------
-- What a pattern keeps of its source
-- ---------------------------------------------------------------------------

/-- A pattern loses nothing that can be seen. -/
structure Pattern.Preserves (source : String) (p : Pattern) : Prop where
  /-- A byte of the pattern that no element covers is a space or a line end. -/
  blank_outside : ∀ before ch after i, source.toList = before ++ ch :: after →
    byteLength before ≤ i → i < byteLength before + ch.utf8Size →
    p.span.start ≤ i → i < p.span.stop →
    (∀ e ∈ p.elements, ¬ (e.span.start ≤ i ∧ i < e.span.stop)) → ch = ' ' ∨ ch = '\n'
  /-- A text has the ink of what it was read from, and as many line ends. -/
  texts : ∀ t, .text t ∈ p.elements →
    ∃ text, t.span.slice? source.toList = some text ∧ Depicts text t.value.toList

namespace Element

variable {es : List Element}

/-- What no element covers is blank. -/
theorem Lie.blank_of_uncovered (h : Lie c es d) (hc : c.In source.toList) {k : Cursor}
    (hk : k.In source.toList) (hpeek : k.peek = some ch) (hle : c.offset ≤ k.offset)
    (hlt : k.offset < d.offset) {i : Nat} (hi : k.offset ≤ i ∧ i < k.offset + ch.utf8Size)
    (hout : ∀ e ∈ es, ¬ (e.span.start ≤ i ∧ i < e.span.stop)) : Cursor.isBlank ch := by
  induction es generalizing c with
  | nil =>
    obtain ⟨gap, hgap, hblank⟩ := h
    exact hblank ch (hgap.mem_of_between hc hk hpeek hle hlt)
  | cons e es ih =>
    obtain ⟨gap, m, text, n, hgap, hspaces, hreads, he, hes⟩ := h
    have hm := hgap.in hc
    have hn := hreads.in hm
    obtain hfront | hbehind := Nat.lt_or_ge k.offset m.offset
    · rw [hspaces ch (hgap.mem_of_between hc hk hpeek hle hfront)]
      rfl
    obtain hinside | hbehind' := Nat.lt_or_ge k.offset n.offset
    · -- the whole character lies under the element
      have hwhole := hk.char_le hn hpeek hinside
      have hcover := hout e List.mem_cons_self
      rw [he.span] at hcover
      exact absurd ⟨by simp only [Cursor.spanTo]; omega, by simp only [Cursor.spanTo]; omega⟩ hcover
    · exact ih hes hn hbehind' fun e he => hout e (List.mem_cons_of_mem _ he)

theorem Lie.depicts (h : Lie c es d) (hc : c.In source.toList) {t : TextElement} (ht : .text t ∈ es) :
    ∃ text, t.span.slice? source.toList = some text ∧ Depicts text t.value.toList := by
  induction es generalizing c with
  | nil => simp at ht
  | cons e es ih =>
    obtain ⟨gap, m, text, n, hgap, -, hreads, he, hes⟩ := h
    have hm := hgap.in hc
    rcases List.mem_cons.1 ht with rfl | ht
    · obtain ⟨hspan, hdepicts⟩ := he
      exact ⟨text, by rw [hspan]; exact hreads.slice? hm, hdepicts⟩
    · exact ih hes (hreads.in hm) ht

end Element

theorem Parser.pattern_preserves {placeable : Parser Placeable} {block : Bool} {q : Pattern}
    (hplaceable : placeable.Spans source) (hc : c.In source.toList) (hopens : c.OpensPattern block)
    (h : pattern placeable block c = .ok (q, d)) : q.Preserves source := by
  obtain ⟨hspan, hlie⟩ := pattern_lie hplaceable hc hopens h
  refine ⟨fun before ch after i hs hle hlt hstart hstop hout => ?_, fun t ht => hlie.depicts hc ht⟩
  have hk : Cursor.In source.toList ⟨ch :: after, byteLength before⟩ := ⟨before, hs, rfl⟩
  rw [hspan] at hstart hstop
  suffices Cursor.isBlank ch by simpa [Cursor.isBlank] using this
  refine hlie.blank_of_uncovered hc hk rfl ?_ ?_ ⟨hle, hlt⟩ hout
  · -- a character in front of the pattern ends there
    refine Nat.le_of_not_lt fun hfront => ?_
    have hwhole : byteLength before + ch.utf8Size ≤ c.offset := hk.char_le hc rfl hfront
    have hstart : c.offset ≤ i := hstart
    omega
  · exact Nat.lt_of_le_of_lt hle hstop

end MessageLint
