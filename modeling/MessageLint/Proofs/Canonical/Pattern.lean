-- SUMMARY: Patterns on one line are recovered from their texts.
import MessageLint.Proofs.Canonical.Text
import MessageLint.Proofs.Canonical.Recovery

/-!
# Recovery of patterns

A canonical pattern stands on one line, so each of its elements is read as a piece of its own, and
nothing is dedented, joined or trimmed.
-/

namespace MessageLint

-- ---------------------------------------------------------------------------
-- Elements as pieces
-- ---------------------------------------------------------------------------

namespace Element

def piece : Element → Piece
  | .text t => .text t
  | .placeable p => .placeable p

theorem dedent_piece (common : Nat) (e : Element) : e.piece.dedent common = some e := by
  cases e <;> rfl

theorem Apart.tail {e : Element} {es : List Element} (h : Apart (e :: es)) : Apart es := by
  cases es with
  | nil => trivial
  | cons e' es =>
    cases e with
    | placeable => exact h
    | text =>
      cases e' with
      | placeable => exact h
      | text => exact h.elim

theorem join_of_apart {es : List Element} (h : Apart es) : join es = es := by
  induction es with
  | nil => rfl
  | cons e es ih =>
    change joinOnto e (join es) = e :: es
    rw [ih h.tail]
    cases e with
    | placeable => rfl
    | text =>
      cases es with
      | nil => rfl
      | cons e' es =>
        cases e' with
        | placeable => rfl
        | text => exact h.elim

theorem trimEnd_of_getLast {value : String} {ch : Char} (hlast : value.toList.getLast? = some ch)
    (hch : Cursor.isBlank ch = false) : trimEnd value = value := by
  obtain ⟨before, hvalue⟩ := List.getLast?_eq_some_iff.1 hlast
  have htrim : (before ++ [ch]).reverse.dropWhile Cursor.isBlank = (before ++ [ch]).reverse := by
    simp [hch]
  rw [trimEnd, hvalue, htrim, List.reverse_reverse, ← hvalue, String.ofList_toList]

theorem trimLast_of_trimmed {es : List Element} (h : AllCanonical es)
    (hlast : ∀ t, es.getLast? = some (.text t) → t.value.toList.getLast? ≠ some ' ') :
    trimLast es = es := by
  induction es with
  | nil => rfl
  | cons e es ih =>
    cases es with
    | cons e' es =>
      have htail := ih h.2 fun t ht => hlast t (by rwa [List.getLast?_cons_cons])
      cases e <;> exact congrArg (List.cons _) htail
    | nil =>
      cases e with
      | placeable => rfl
      | text t =>
        obtain ⟨⟨hne, hclean⟩, -⟩ := h
        have hlist : t.value.toList ≠ [] := by simpa using hne
        obtain ⟨ch, hch⟩ := Option.ne_none_iff_exists'.1 (mt List.getLast?_eq_none_iff.1 hlist)
        have hspace : ch ≠ ' ' := fun heq => hlast t rfl (heq ▸ hch)
        have hblank : Cursor.isBlank ch = false := by
          simpa [Cursor.isBlank, hspace] using (hclean ch (List.mem_of_getLast? hch)).2.2
        have htrim := trimEnd_of_getLast hch hblank
        simp [trimLast, htrim, hne]

end Element

theorem Piece.elements_piece {es : List Element} (hapart : Element.Apart es)
    (htrimmed : Element.Trimmed es) (h : Element.AllCanonical es) :
    elements (es.map Element.piece) = es := by
  have hdedent (common : Nat) : (es.map Element.piece).filterMap (dedent common) = es := by
    rw [List.filterMap_map]
    simp [Element.dedent_piece]
  rw [elements, hdedent, Element.join_of_apart hapart, Element.trimLast_of_trimmed h htrimmed.2]

-- ---------------------------------------------------------------------------
-- Reading
-- ---------------------------------------------------------------------------

namespace Parser

variable {placeable : Parser Placeable} {size : Nat} {rest : List Char}

/-- The parser recovers every placeable in a text with fewer than `size` characters. -/
def RecoversPlaceables (placeable : Parser Placeable) (size : Nat) : Prop :=
  ∀ p rest, p.Canonical → (p.render ++ rest).length < size →
    placeable.Recovers (·.respan .forget) p p.render rest

/-- A pattern that has been read up to here ends here. -/
def EndsPattern (rest : List Char) : Prop := ∀ offset, Cursor.continuesPiece ⟨rest, offset⟩ = false

theorem EndsPattern.stops (h : EndsPattern rest) : Stops isPatternText rest := by
  intro ch hch
  have hends := h 0
  have hpeek : Cursor.peek ⟨rest, 0⟩ = some ch := hch
  unfold Cursor.continuesPiece at hends
  rw [hpeek] at hends
  split at hends
  · simp_all
  · next heq =>
    obtain rfl := Option.some.inj heq
    rfl
  · simp at hends

/-- A line that starts like the end of a placeable, an attribute or a variant does not continue a
pattern, and neither does one that is not indented, unless a placeable starts there. -/
theorem continuesPattern_line {spaces : List Char} {ch : Char} (offset : Nat)
    (hspaces : ∀ ch ∈ spaces, ch = ' ') (hblank : Cursor.isBlank ch = false) (hopen : ch ≠ '\x7b')
    (hch : spaces = [] ∨ ch ∈ ['\x7d', '.', '[', '*']) :
    Cursor.continuesPattern ⟨spaces ++ ch :: rest, offset⟩ = false := by
  have hspace : Cursor.isSpace ch = false := by
    simp_all [Cursor.isBlank, Cursor.isSpace]
  have hskip : Cursor.skipSpaces ⟨spaces ++ ch :: rest, offset⟩ =
      ⟨ch :: rest, offset + byteLength spaces⟩ :=
    Recovers.skipWhile_eq spaces (fun d hd => by simp [Cursor.isSpace, hspaces d hd])
      (stops_cons.2 hspace)
  have hpeek : Cursor.peek ⟨ch :: rest, offset + byteLength spaces⟩ = some ch := rfl
  simp only [Cursor.continuesPattern, hskip, hpeek]
  rcases hch with rfl | hch
  · simp
  · have hstops : ['\n', '\x7d', '.', '[', '*'].contains ch := by simp_all
    rw [hstops, Bool.not_true, Bool.and_false]

theorem endsPattern_line {spaces : List Char} {ch : Char} (hspaces : ∀ ch ∈ spaces, ch = ' ')
    (hblank : Cursor.isBlank ch = false) (hopen : ch ≠ '\x7b')
    (hch : spaces = [] ∨ ch ∈ ['\x7d', '.', '[', '*']) :
    EndsPattern ('\n' :: (spaces ++ ch :: rest)) := by
  intro offset
  change (Cursor.skipBlankLinesFrom ⟨spaces ++ ch :: rest, offset + 1⟩ 1 (spaces ++ ch :: rest)
    (offset + 1)).2.continuesPattern = false
  rw [Cursor.skipBlankLinesFrom_spaces _ _ _ hspaces hblank]
  exact continuesPattern_line _ hspaces hblank hopen hch

/-- The blank line between entries ends a pattern. -/
theorem endsPattern_blankLine {ch : Char} (hblank : Cursor.isBlank ch = false) (hopen : ch ≠ '\x7b') :
    EndsPattern ('\n' :: '\n' :: ch :: rest) := by
  intro offset
  change (Cursor.skipBlankLinesFrom ⟨[] ++ ch :: rest, offset + 1 + 1⟩ 2 ([] ++ ch :: rest)
    (offset + 1 + 1)).2.continuesPattern = false
  rw [Cursor.skipBlankLinesFrom_spaces _ _ _ (by simp) hblank]
  exact continuesPattern_line _ (by simp) hblank hopen (.inl rfl)

theorem endsPattern_end : EndsPattern ['\n'] := fun _ => rfl

theorem continuesPiece_cons {ch : Char} (hch : ch ≠ '\n') (offset : Nat) :
    Cursor.continuesPiece ⟨ch :: rest, offset⟩ := by
  unfold Cursor.continuesPiece
  split
  · simp_all [Cursor.peek]
  · next heq => exact absurd (Option.some.inj heq) hch
  · rfl

/-- A text is read up to where no text goes on. -/
theorem piece_recovers_text {t : TextElement} (ht : (Element.text t).Canonical)
    (hrest : Stops isPatternText rest) :
    (piece placeable).Recovers (·.respan .forget) (.text t) t.value.toList rest := by
  refine .place_bind fun start hstart => ?_
  obtain ⟨hne, hclean⟩ := ht
  obtain ⟨ch, tail, htail⟩ := List.exists_cons_of_ne_nil (l := t.value.toList) (by simpa using hne)
  obtain ⟨hopen, hclose, hline⟩ := hclean ch (by simp [htail])
  have hpeek : start.peek = some ch := by simp [Cursor.peek, hstart, htail]
  have hall : ∀ ch ∈ t.value.toList, isPatternText ch := fun ch hch => by
    simpa [isPatternText, and_assoc] using hclean ch hch
  generalize start.peek = first at hpeek ⊢
  split
  · exact absurd (Option.some.inj hpeek).symm hline
  · exact absurd (Option.some.inj hpeek).symm hopen
  · exact absurd (Option.some.inj hpeek).symm hclose
  · refine .bind_last (.takeWhile hall hrest) fun value hvalue => ?_
    obtain rfl : value = t.value := by simpa using hvalue
    exact .spanFrom_bind fun _ => .pure rfl

/-- A text is read up to where no text goes on, a placeable up to its brace. -/
theorem piece_recovers {e : Element} (hplaceable : RecoversPlaceables placeable size)
    (he : e.Canonical) (hsize : (e.render ++ rest).length < size)
    (hrest : ∀ t, e = .text t → Stops isPatternText rest) :
    (piece placeable).Recovers (·.respan .forget) e.piece e.render rest := by
  cases e with
  | text t => exact piece_recovers_text he (hrest t rfl)
  | placeable p =>
    refine .place_bind fun start hstart => ?_
    have hpeek : start.peek = some '\x7b' := by
      obtain ⟨expression, span⟩ := p
      simp [Cursor.peek, hstart, Element.render, Placeable.render]
    simp only [hpeek]
    refine .bind_last (hplaceable p rest he hsize) fun p' hp' => .pure ?_
    exact congrArg Piece.placeable hp'

/-- Behind a text of a pattern stands a placeable or the end. -/
theorem stops_renderAll {t : TextElement} {es : List Element} (hapart : Element.Apart (.text t :: es))
    (hrest : EndsPattern rest) : Stops isPatternText (Element.renderAll es ++ rest) := by
  cases es with
  | nil => exact hrest.stops
  | cons e es =>
    cases e with
    | text => exact hapart.elim
    | placeable p =>
      obtain ⟨expression, span⟩ := p
      exact stops_cons.2 rfl

/-- The elements of a pattern, read one after the other. -/
theorem gather_piece_recovers {es : List Element} (hplaceable : RecoversPlaceables placeable size)
    (hes : Element.AllCanonical es) (hapart : Element.Apart es)
    (hsize : (Element.renderAll es ++ rest).length < size) (hrest : EndsPattern rest) :
    (gather (fun _ c => c.continuesPiece) (fun _ => piece placeable) []).Recovers
      (List.map (·.respan .forget)) (es.map Element.piece) (Element.renderAll es) rest := by
  apply Recovers.gather (M := fun _ todo text => ∃ es, todo = es.map Element.piece ∧
    text = Element.renderAll es ∧ Element.AllCanonical es ∧ Element.Apart es ∧
    (text ++ rest).length < size)
  · rintro seen text ⟨es, hnil, rfl, -⟩
    obtain rfl : es = [] := by simpa using hnil.symm
    exact ⟨rfl, hrest⟩
  · rintro seen a as text ⟨es, hcons, rfl, hall, hapart, hsize⟩
    cases es with
    | nil => simp at hcons
    | cons e es =>
      obtain ⟨rfl, rfl⟩ : a = e.piece ∧ as = es.map Element.piece := by simpa using hcons
      obtain ⟨ch, tail, hhead, hline⟩ := Element.exists_head hall.1
      have hlength : (e.render ++ (Element.renderAll es ++ rest)).length < size := by
        rwa [← List.append_assoc]
      refine ⟨e.render, Element.renderAll es, rfl, by simp [hhead], ?_, ?_, ?_⟩
      · intro offset
        rw [hhead]
        exact continuesPiece_cons hline offset
      · refine piece_recovers hplaceable hall.1 hlength fun t ht => ?_
        subst ht
        exact stops_renderAll hapart hrest
      · intro _ _
        refine ⟨es, rfl, rfl, hall.2, hapart.tail, ?_⟩
        rw [List.length_append] at hlength
        omega
  · exact ⟨es, rfl, rfl, hes, hapart, hsize⟩

/-- A pattern is recovered with its pieces. -/
theorem pattern_of_pieces (block : Bool) (span : Span) {ps : List Piece} {text : List Char}
    (hpieces : (pieces placeable block).Recovers (List.map (·.respan .forget)) ps text rest) :
    (pattern placeable block).Recovers (·.respan .forget) ⟨Piece.elements ps, span⟩ text rest := by
  refine .place_bind fun start _ => .bind_last hpieces fun ps' hps => .spanFrom_bind fun _ => .pure ?_
  have hforget (ps : List Piece) := Piece.elements_respan (f := Span.forget) (fun _ _ => rfl) ps
  have helements :
      (Piece.elements ps').map (·.respan .forget) = (Piece.elements ps).map (·.respan .forget) := by
    rw [← hforget, hps, hforget]
  simp [Pattern.respan, helements]

theorem pattern_recovers {p : Pattern} (hplaceable : RecoversPlaceables placeable size)
    (hp : p.Canonical) (hsize : (p.render ++ rest).length < size) (hrest : EndsPattern rest) :
    (pattern placeable false).Recovers (·.respan .forget) p p.render rest := by
  obtain ⟨elements, span⟩ := p
  obtain ⟨-, hapart, htrimmed, hall⟩ := hp
  have hpieces := gather_piece_recovers hplaceable hall hapart hsize hrest
  have hpattern := pattern_of_pieces false span hpieces
  rwa [Piece.elements_piece hapart htrimmed hall] at hpattern

/-- A value that starts on the line of its `=`. -/
theorem pattern?_of_line {p : Pattern} {text : List Char}
    (hhead : ∃ ch tail, text = ch :: tail ∧ ch ≠ ' ' ∧ ch ≠ '\n')
    (hpattern : (pattern placeable false).Recovers (·.respan .forget) p text rest) :
    (pattern? placeable).Recovers (Option.map (·.respan .forget)) (some p) (' ' :: text) rest := by
  obtain ⟨ch, tail, rfl, hspace, hline⟩ := hhead
  intro offset
  have hskip : Cursor.skipSpaces ⟨' ' :: ch :: tail ++ rest, offset⟩ =
      ⟨ch :: tail ++ rest, offset + 1⟩ :=
    Recovers.skipWhile_eq [' '] (by simp [Cursor.isSpace]) (stops_cons.2 (by simpa [Cursor.isSpace]))
  have hinline : ¬(Cursor.atEnd ⟨ch :: tail ++ rest, offset + 1⟩ ||
      Cursor.peek ⟨ch :: tail ++ rest, offset + 1⟩ = some '\n') := by
    simp [Cursor.atEnd, Cursor.peek, hline]
  obtain ⟨p', m, hrun, hp'⟩ := hpattern (offset + 1)
  refine ⟨some p', m, ?_, congrArg some hp'⟩
  rw [pattern?, Parser.place_bind, hskip, if_neg hinline, moveTo_bind]
  exact bind_eq_ok.2 ⟨p', _, hrun, rfl⟩

theorem pattern?_recovers {p : Pattern} (hplaceable : RecoversPlaceables placeable size)
    (hp : p.Canonical) (hsize : (p.render ++ rest).length < size) (hrest : EndsPattern rest) :
    (pattern? placeable).Recovers (Option.map (·.respan .forget)) (some p) (' ' :: p.render) rest :=
  pattern?_of_line (Pattern.exists_head hp) (pattern_recovers hplaceable hp hsize hrest)

/-- In front of a line that cannot be a value there is none. -/
theorem pattern?_recovers_none {line : List Char} (hrest : EndsPattern ('\n' :: line)) :
    (pattern? placeable).Recovers (Option.map (·.respan .forget)) none [] ('\n' :: line) := by
  intro offset
  have hline : (Cursor.skipBlankLines ⟨'\n' :: line, offset⟩).2.continuesPattern = false :=
    hrest offset
  refine ⟨none, offset, ?_, rfl⟩
  change (if (Cursor.skipBlankLines ⟨'\n' :: line, offset⟩).2.continuesPattern then _
    else _ : Parser _) _ = _
  rw [hline]
  rfl

theorem requiredPattern_recovers {p : Pattern} (hplaceable : RecoversPlaceables placeable size)
    (hp : p.Canonical) (hsize : (p.render ++ rest).length < size) (hrest : EndsPattern rest) :
    (requiredPattern placeable).Recovers (·.respan .forget) p (' ' :: p.render) rest := by
  refine .bind_last (pattern?_recovers hplaceable hp hsize hrest) fun found hfound => ?_
  cases found with
  | none => simp at hfound
  | some q => exact .pure (by simpa using hfound)

end Parser

end MessageLint
