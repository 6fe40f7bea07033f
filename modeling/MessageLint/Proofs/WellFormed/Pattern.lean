-- SUMMARY: The elements of a pattern: never none, never two texts in a row, never a loose blank at the end.
import MessageLint.Proofs.Spans.Expression
import MessageLint.Proofs.Canonical.Text

/-!
# Well-formed patterns

What holds of the elements of a pattern is made in steps: reading gives pieces of which one cannot be
lost, since it is a placeable or starts with ink; removing the indentation keeps every text free of
braces and never empty; joining leaves no two texts in a row; and trimming takes blanks off the last
text only. Each step has its lemmas here, and `Parser.pattern?_wellFormed` puts them together.
-/

namespace MessageLint

/-- What the elements of a pattern are. -/
structure Pattern.WellFormed (p : Pattern) : Prop where
  nonempty : p.elements ≠ []
  apart : Element.Apart p.elements
  /-- No text is empty or holds a brace. -/
  texts : ∀ t, .text t ∈ p.elements → t.value ≠ "" ∧
    ∀ ch ∈ t.value.toList, ch ≠ '\x7b' ∧ ch ≠ '\x7d'
  /-- A text at the end does not end with a blank. -/
  trimmed : ∀ t, p.elements.getLast? = some (.text t) →
    ∀ ch, t.value.toList.getLast? = some ch → ch ≠ ' ' ∧ ch ≠ '\n'
  /-- A text in front does not start with a line end. -/
  opens : ∀ t, p.elements.head? = some (.text t) → t.value.toList.head? ≠ some '\n'

-- ---------------------------------------------------------------------------
-- Elements
-- ---------------------------------------------------------------------------

namespace Element

variable {e : Element} {es : List Element}

/-- An element that trimming cannot remove. -/
def Inked : Element → Prop
  | .text t => ∃ ch ∈ t.value.toList, Cursor.isBlank ch = false
  | .placeable _ => True

/-- A text holds something, but no brace. -/
def Clean : Element → Prop
  | .text t => t.value ≠ "" ∧ ∀ ch ∈ t.value.toList, ch ≠ '\x7b' ∧ ch ≠ '\x7d'
  | .placeable _ => True

/-- A text does not start with a line end. -/
def Opens : Element → Prop
  | .text t => t.value.toList.head? ≠ some '\n'
  | .placeable _ => True

-- Joining

theorem apart_cons :
    Apart (e :: es) ↔ (∀ a b, e = .text a → es.head? ≠ some (.text b)) ∧ Apart es := by
  cases e with
  | placeable => simp [Apart]
  | text =>
    cases es with
    | nil => simp [Apart]
    | cons e' es => cases e' <;> simp [Apart]

private theorem apart_joinOnto (e : Element) (h : Apart es) : Apart (joinOnto e es) := by
  unfold joinOnto
  split
  · next a b es =>
    obtain ⟨hb, hes⟩ := apart_cons.1 h
    exact apart_cons.2 ⟨fun _ t _ => hb b t rfl, hes⟩
  · next hne =>
    refine apart_cons.2 ⟨fun a b he hhead => ?_, h⟩
    obtain ⟨tail, rfl⟩ := List.head?_eq_some_iff.1 hhead
    exact hne a b tail he rfl

theorem apart_join (es : List Element) : Apart (join es) := by
  induction es with
  | nil => trivial
  | cons e es ih => exact apart_joinOnto e ih

private theorem clean_joinOnto (he : e.Clean) (h : ∀ k ∈ es, k.Clean) :
    ∀ k ∈ joinOnto e es, k.Clean := by
  unfold joinOnto
  split
  · next a b es =>
    obtain ⟨hb, hes⟩ := List.forall_mem_cons.1 h
    refine List.forall_mem_cons.2 ⟨⟨?_, fun ch hch => ?_⟩, hes⟩
    · simp [he.1]
    · rw [String.toList_append, List.mem_append] at hch
      exact hch.elim (he.2 ch) (hb.2 ch)
  · exact List.forall_mem_cons.2 ⟨he, h⟩

theorem clean_join (h : ∀ k ∈ es, k.Clean) : ∀ k ∈ join es, k.Clean := by
  induction es with
  | nil => simp [join]
  | cons e es ih =>
    obtain ⟨he, hes⟩ := List.forall_mem_cons.1 h
    exact clean_joinOnto he (ih hes)

private theorem inked_joinOnto (h : ∃ k ∈ e :: es, k.Inked) : ∃ k ∈ joinOnto e es, k.Inked := by
  unfold joinOnto
  split
  · next a b es =>
    obtain ⟨k, hk, hinked⟩ := h
    rcases List.mem_cons.1 hk with rfl | hk
    · obtain ⟨ch, hch, hblank⟩ := hinked
      exact ⟨_, List.mem_cons_self, ch, by simp [hch], hblank⟩
    · rcases List.mem_cons.1 hk with rfl | hk
      · obtain ⟨ch, hch, hblank⟩ := hinked
        exact ⟨_, List.mem_cons_self, ch, by simp [hch], hblank⟩
      · exact ⟨k, List.mem_cons_of_mem _ hk, hinked⟩
  · exact h

theorem inked_join (h : ∃ k ∈ es, k.Inked) : ∃ k ∈ join es, k.Inked := by
  induction es with
  | nil => exact h
  | cons e es ih =>
    obtain ⟨k, hk, hinked⟩ := h
    rcases List.mem_cons.1 hk with rfl | hk
    · exact inked_joinOnto ⟨k, List.mem_cons_self, hinked⟩
    · obtain ⟨k', hk', hinked'⟩ := ih ⟨k, hk, hinked⟩
      exact inked_joinOnto ⟨k', List.mem_cons_of_mem _ hk', hinked'⟩

theorem opens_join (he : e.Clean) (hopens : e.Opens) {k : Element}
    (h : (join (e :: es)).head? = some k) : k.Opens := by
  change (joinOnto e (join es)).head? = some k at h
  unfold joinOnto at h
  split at h
  · next a b _ _ =>
    -- the first text is not empty, so the joined one starts as it does
    obtain ⟨ch, tail, htail⟩ := List.exists_cons_of_ne_nil (l := a.value.toList) (by simpa using he.1)
    obtain rfl := Option.some.inj h
    simpa [Opens, htail] using hopens
  · obtain rfl := Option.some.inj h
    exact hopens

-- Trimming

theorem toList_trimEnd (value : String) :
    (trimEnd value).toList = value.toList.rdropWhile Cursor.isBlank :=
  String.toList_ofList

theorem trimEnd_isPrefix (value : String) : (trimEnd value).toList <+: value.toList := by
  rw [toList_trimEnd]
  exact List.rdropWhile_prefix _ _

theorem not_isBlank_of_getLast_trimEnd {value : String} {ch : Char}
    (h : (trimEnd value).toList.getLast? = some ch) : Cursor.isBlank ch = false := by
  have hne : value.toList.rdropWhile Cursor.isBlank ≠ [] := by
    rintro hnil
    simp [toList_trimEnd, hnil] at h
  rw [toList_trimEnd, List.getLast?_eq_getLast_of_ne_nil hne, Option.some.injEq] at h
  simpa [h] using List.rdropWhile_last_not Cursor.isBlank value.toList hne

/-- A text that has ink is not trimmed away. -/
theorem not_isEmpty_trimEnd {t : TextElement} (h : Inked (.text t)) :
    (trimEnd t.value).isEmpty = false := by
  obtain ⟨ch, hch, hblank⟩ := h
  rw [Bool.eq_false_iff, ne_eq, String.isEmpty_iff, ← String.toList_eq_nil_iff, toList_trimEnd,
    List.rdropWhile_eq_nil_iff]
  intro hall
  rw [hall ch hch] at hblank
  exact absurd hblank (by decide)

theorem inked_trimLast (h : ∃ k ∈ es, k.Inked) : trimLast es ≠ [] := by
  fun_induction trimLast es with
  | case1 => simp at h
  | case2 t value hempty =>
    obtain ⟨k, hk, hinked⟩ := h
    obtain rfl := List.mem_singleton.1 hk
    rw [not_isEmpty_trimEnd hinked] at hempty
    exact absurd hempty (by decide)
  | case3 => simp
  | case4 => simp

theorem head_trimLast {t : TextElement} (h : (trimLast es).head? = some (.text t)) :
    ∃ t', es.head? = some (.text t') ∧ t.value.toList <+: t'.value.toList := by
  fun_induction trimLast es with
  | case1 => simp at h
  | case2 => simp at h
  | case3 t' =>
    obtain rfl : TextElement.mk _ _ = t := by simpa using h
    exact ⟨t', rfl, trimEnd_isPrefix t'.value⟩
  | case4 e es =>
    obtain rfl : e = .text t := Option.some.inj h
    exact ⟨t, rfl, List.prefix_rfl⟩

theorem apart_trimLast (h : Apart es) : Apart (trimLast es) := by
  fun_induction trimLast es with
  | case1 => trivial
  | case2 => trivial
  | case3 => trivial
  | case4 e es _ ih =>
    obtain ⟨he, hes⟩ := apart_cons.1 h
    refine apart_cons.2 ⟨fun a b ha hhead => ?_, ih hes⟩
    obtain ⟨b', hhead', -⟩ := head_trimLast hhead
    exact he a b' ha hhead'

theorem clean_trimLast (h : ∀ k ∈ es, k.Clean) : ∀ k ∈ trimLast es, k.Clean := by
  fun_induction trimLast es with
  | case1 => exact h
  | case2 => simp
  | case3 t value hne =>
    have ht := h _ List.mem_cons_self
    refine List.forall_mem_singleton.2 ⟨by simpa using hne, fun ch hch => ?_⟩
    exact ht.2 ch ((trimEnd_isPrefix t.value).subset hch)
  | case4 e es _ ih =>
    obtain ⟨he, hes⟩ := List.forall_mem_cons.1 h
    exact List.forall_mem_cons.2 ⟨he, ih hes⟩

theorem trimmed_trimLast (hapart : Apart es) {t : TextElement} {ch : Char}
    (h : (trimLast es).getLast? = some (.text t)) (hch : t.value.toList.getLast? = some ch) :
    Cursor.isBlank ch = false := by
  fun_induction trimLast es with
  | case1 => simp at h
  | case2 => simp at h
  | case3 t' =>
    obtain rfl : TextElement.mk _ _ = t := by simpa using h
    exact not_isBlank_of_getLast_trimEnd hch
  | case4 e es hne ih =>
    obtain ⟨he, hes⟩ := apart_cons.1 hapart
    cases htrim : trimLast es with
    | cons e' es' =>
      rw [htrim, List.getLast?_cons_cons, ← htrim] at h
      exact ih hes h
    | nil =>
      -- what stood behind `e` was a text and is gone, so `e` itself is none
      rw [htrim] at h
      obtain rfl : e = .text t := Option.some.inj h
      cases es with
      | nil => exact absurd rfl (hne t rfl)
      | cons first es =>
        cases first with
        | text b => exact absurd rfl (he t b rfl)
        | placeable => simp [trimLast] at htrim

end Element

-- ---------------------------------------------------------------------------
-- Pieces
-- ---------------------------------------------------------------------------

namespace Piece

variable {p first : Piece} {opening rest : List Piece} {common : Nat}

/-- A piece that cannot be lost: a placeable, or text that does not start with a blank. -/
def Inked : Piece → Prop
  | .indent .. => False
  | .text t => ∃ ch, t.value.toList.head? = some ch ∧ Cursor.isBlank ch = false
  | .placeable _ => True

/-- A text holds something, and nothing that ends a text. -/
def Clean : Piece → Prop
  | .text t => t.value ≠ "" ∧ ∀ ch ∈ t.value.toList, isPatternText ch
  | _ => True

/-- The indentation of a first line, with no line end in front of it. -/
def IsOpening (p : Piece) : Prop := ∃ spaces span, p = .indent 0 spaces span

theorem clean_dedent {e : Element} (h : p.Clean) (he : p.dedent common = some e) : e.Clean := by
  cases p with
  | placeable q =>
    obtain rfl := Option.some.inj he
    trivial
  | text t =>
    obtain rfl := Option.some.inj he
    refine ⟨h.1, fun ch hch => ?_⟩
    have htext := h.2 ch hch
    simp only [isPatternText, Bool.and_eq_true, decide_eq_true_eq] at htext
    exact htext.1
  | indent newlines spaces span =>
    rw [dedent] at he
    split at he
    · simp at he
    · next hkept =>
      obtain rfl := Option.some.inj he
      refine ⟨fun hempty => hkept (by simpa using hempty), fun ch hch => ?_⟩
      have hblank : ch = '\n' ∨ ch = ' ' := by
        rw [String.toList_ofList, List.mem_append] at hch
        exact hch.imp List.eq_of_mem_replicate List.eq_of_mem_replicate
      rcases hblank with rfl | rfl <;> decide

theorem inked_dedent (common : Nat) (h : p.Inked) : ∃ e, p.dedent common = some e ∧ e.Inked ∧ e.Opens := by
  cases p with
  | indent => exact h.elim
  | placeable q => exact ⟨_, rfl, trivial, trivial⟩
  | text t =>
    obtain ⟨ch, hhead, hch⟩ := h
    refine ⟨_, rfl, ⟨ch, List.mem_of_mem_head? hhead, hch⟩, fun hline => ?_⟩
    obtain rfl : ch = '\n' := Option.some.inj (hhead.symm.trans hline)
    exact absurd hch (by decide)

/-- Whether the first indentation is dropped or leaves spaces, no line end comes first. -/
theorem opens_dedent (common : Nat) (rest : List Piece) (hopening : ∀ p ∈ opening, p.IsOpening)
    (hfirst : first.Inked) :
    ∃ e es, (opening ++ first :: rest).filterMap (dedent common) = e :: es ∧ e.Opens := by
  induction opening with
  | nil =>
    obtain ⟨e, he, -, hopens⟩ := inked_dedent common hfirst
    exact ⟨e, rest.filterMap (dedent common), by simp [he], hopens⟩
  | cons p opening ih =>
    obtain ⟨⟨spaces, span, rfl⟩, hrest⟩ := List.forall_mem_cons.1 hopening
    cases hspaces : dedent common (.indent 0 spaces span) with
    | none =>
      rw [List.cons_append, List.filterMap_cons_none hspaces]
      exact ih hrest
    | some e =>
      refine ⟨e, _, by rw [List.cons_append, List.filterMap_cons_some hspaces], ?_⟩
      rw [dedent] at hspaces
      split at hspaces
      · simp at hspaces
      · obtain rfl := Option.some.inj hspaces
        intro hline
        have hmem := List.mem_of_mem_head? hline
        simp at hmem

/-- The elements that pieces stand for, one of the pieces being one that cannot be lost. -/
theorem elements_wellFormed {pieces : List Piece} (span : Span)
    (hpieces : pieces = opening ++ first :: rest) (hopening : ∀ p ∈ opening, p.IsOpening)
    (hfirst : first.Inked) (hclean : ∀ p ∈ pieces, p.Clean) :
    (Pattern.mk (elements pieces) span).WellFormed := by
  let dedented := pieces.filterMap (dedent (commonIndent pieces))
  have hdedented : ∀ e ∈ dedented, e.Clean := fun e he => by
    obtain ⟨p, hp, hdedent⟩ := List.mem_filterMap.1 he
    exact clean_dedent (hclean p hp) hdedent
  have hinked : ∃ e ∈ dedented, e.Inked := by
    obtain ⟨e, he, hinked, -⟩ := inked_dedent (commonIndent pieces) hfirst
    exact ⟨e, List.mem_filterMap.2 ⟨first, by simp [hpieces], he⟩, hinked⟩
  have hopens : ∀ e, (Element.join dedented).head? = some e → e.Opens := fun e he => by
    obtain ⟨first, es, hcons, hfirst⟩ :=
      opens_dedent (commonIndent pieces) rest hopening hfirst
    rw [← hpieces] at hcons
    have hcons : dedented = first :: es := hcons
    rw [hcons] at hdedented he
    exact Element.opens_join (hdedented first List.mem_cons_self) hfirst he
  have hapart := Element.apart_join dedented
  have hcleaned := Element.clean_trimLast (Element.clean_join hdedented)
  exact {
    nonempty := Element.inked_trimLast (Element.inked_join hinked)
    apart := Element.apart_trimLast hapart
    texts := fun t ht => hcleaned _ ht
    trimmed := fun t ht ch hch => by
      simpa [Cursor.isBlank] using Element.trimmed_trimLast hapart ht hch
    opens := fun t ht hline => by
      obtain ⟨t', ht', hprefix⟩ := Element.head_trimLast ht
      obtain ⟨tail, htail⟩ := List.head?_eq_some_iff.1 hline
      obtain ⟨more, hmore⟩ := hprefix
      have hline' : t'.value.toList.head? = some '\n' := by rw [← hmore, htail]; rfl
      exact hopens _ ht' hline' }

end Piece

-- ---------------------------------------------------------------------------
-- Reading
-- ---------------------------------------------------------------------------

/-- A pattern, on this line or as a block from its first line on, has something to start with. -/
def Cursor.OpensPattern (c : Cursor) (block : Bool) : Prop :=
  ∃ ch, (if block then c.skipSpaces else c).peek = some ch ∧ Cursor.isBlank ch = false

/-- The spaces of a line are skipped before it is looked at. -/
theorem Cursor.isBlank_of_peek_skipSpaces {c : Cursor} {ch : Char}
    (h : c.skipSpaces.peek = some ch) (hch : ch ≠ '\n') : Cursor.isBlank ch = false := by
  have hspace : Cursor.isSpace ch = false := Cursor.peek_skipWhile h
  simp_all [Cursor.isBlank, Cursor.isSpace]

theorem Cursor.opensPattern_of_continues {c : Cursor} (h : c.continuesPattern) :
    c.OpensPattern true := by
  cases hpeek : c.skipSpaces.peek with
  | none => simp [Cursor.continuesPattern, hpeek] at h
  | some ch =>
    refine ⟨ch, hpeek, Cursor.isBlank_of_peek_skipSpaces hpeek ?_⟩
    rintro rfl
    simp [Cursor.continuesPattern, hpeek] at h

theorem Cursor.continuesPiece_of_peek {c : Cursor} {ch : Char} (hpeek : c.peek = some ch)
    (hch : Cursor.isBlank ch = false) : c.continuesPiece := by
  unfold Cursor.continuesPiece
  rw [hpeek]
  split
  · next hnone => simp at hnone
  · next hline =>
    obtain rfl := Option.some.inj hline
    exact absurd hch (by decide)
  · rfl

namespace Parser

variable {placeable : Parser Placeable} {c d : Cursor}

/-- A pattern that is found is read from a place that opens one. -/
theorem pattern?_some {q : Pattern} (h : pattern? placeable c = .ok (some q, d)) :
    ∃ block m text, c.Reads text m ∧ m.OpensPattern block ∧
      pattern placeable block m = .ok (q, d) := by
  have hspaces := c.reads_skipSpaces
  obtain ⟨hnone, -⟩ | ⟨q', -, hcontinues, hq, hsome⟩ | ⟨q', hrest, hline, hq, hsome⟩ := pattern?_ok h
  · simp at hnone
  · obtain rfl := Option.some.inj hsome
    obtain ⟨blank, hblank⟩ := c.skipSpaces.skipBlankLines_ends
    exact ⟨true, _, _, hspaces.trans hblank.reads, Cursor.opensPattern_of_continues hcontinues, hq⟩
  · obtain rfl := Option.some.inj hsome
    obtain ⟨ch, r, hr⟩ := List.exists_cons_of_ne_nil hrest
    have hpeek : c.skipSpaces.peek = some ch := Cursor.peek_eq_some.2 ⟨r, hr⟩
    have hch : ch ≠ '\n' := fun heq => hline (heq ▸ hpeek)
    exact ⟨false, _, _, hspaces, ⟨ch, hpeek, Cursor.isBlank_of_peek_skipSpaces hpeek hch⟩, hq⟩

/-- What opens a pattern is still there once its indentation was read. -/
theorem OpeningAt.peek {block : Bool} {opening : List Piece} {m : Cursor}
    (h : OpeningAt c block opening m) (hopens : c.OpensPattern block) :
    ∃ ch, m.peek = some ch ∧ Cursor.isBlank ch = false := by
  obtain ⟨ch, hpeek, hch⟩ := hopens
  cases block with
  | true =>
    obtain ⟨rfl, -⟩ := h
    exact ⟨ch, hpeek, hch⟩
  | false =>
    obtain ⟨rfl, -⟩ := h
    exact ⟨ch, hpeek, hch⟩

theorem OpeningAt.isOpening {block : Bool} {opening : List Piece} {m : Cursor}
    (h : OpeningAt c block opening m) : ∀ p ∈ opening, p.IsOpening := by
  cases block with
  | true =>
    obtain ⟨-, rfl⟩ := h
    exact List.forall_mem_singleton.2 ⟨_, _, rfl⟩
  | false =>
    obtain ⟨-, rfl⟩ := h
    simp

theorem piece_clean {p : Piece} (hmore : c.continuesPiece) (h : piece placeable c = .ok (p, d)) :
    p.Clean := by
  obtain ⟨-, -, rfl⟩ | ⟨q, -, -, rfl⟩ | ⟨hline, hopen, hclose, -, rfl⟩ := piece_ok h
  · trivial
  · trivial
  · cases hpeek : c.peek with
    | none => simp [Cursor.continuesPiece, hpeek] at hmore
    | some ch =>
      obtain ⟨r, hr⟩ := Cursor.peek_eq_some.1 hpeek
      have htext : isPatternText ch := by simp_all [isPatternText]
      refine ⟨by simp [hr, htext], fun k hk => ?_⟩
      rw [String.toList_ofList] at hk
      exact List.mem_takeWhile_imp hk

theorem piece_inked {p : Piece} {ch : Char} (hpeek : c.peek = some ch)
    (hch : Cursor.isBlank ch = false) (h : piece placeable c = .ok (p, d)) : p.Inked := by
  obtain ⟨hline, -⟩ | ⟨q, -, -, rfl⟩ | ⟨hline, hopen, hclose, -, rfl⟩ := piece_ok h
  · obtain rfl : ch = '\n' := Option.some.inj (hpeek.symm.trans hline)
    exact absurd hch (by decide)
  · trivial
  · obtain ⟨r, hr⟩ := Cursor.peek_eq_some.1 hpeek
    have htext : isPatternText ch := by simp_all [isPatternText]
    exact ⟨ch, by simp [hr, htext], hch⟩

theorem pattern_wellFormed {block : Bool} {q : Pattern} (hopens : c.OpensPattern block)
    (h : pattern placeable block c = .ok (q, d)) : q.WellFormed := by
  obtain ⟨opening, m, pieces, hopening, hpieces, rfl⟩ := pattern_ok h
  obtain ⟨ch, hpeek, hch⟩ := hopening.peek hopens
  have hopening := hopening.isOpening
  have hmore := Cursor.continuesPiece_of_peek hpeek hch
  obtain ⟨first, m', rest, hfirst, hsplit⟩ := gather_first hmore hpieces
  have hclean := gather_forall (P := Piece.Clean) (fun _ _ _ _ hmore hrun => piece_clean hmore hrun)
    (fun p hp => by obtain ⟨_, _, rfl⟩ := hopening p hp; trivial) hpieces
  exact Piece.elements_wellFormed _ hsplit (fun p hp => hopening p (List.mem_reverse.1 hp))
    (piece_inked hpeek hch hfirst) hclean

end Parser

end MessageLint
