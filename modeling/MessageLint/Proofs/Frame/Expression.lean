-- SUMMARY: Parsers for names, patterns and expressions do the same inside a frame.
import MessageLint.Proofs.Frame.Basic

/-!
# Expressions inside frames

What stands between braces or parentheses is followed by a closing one, which is no blank, so inside
them a parser never sees the text behind the source.
-/

namespace MessageLint

/-- Both parsers for what is nested in a construct do the same inside the frame. -/
structure Nested.Carries (w : Frame) (nested nested' : Nested) : Prop where
  inline : nested.inline.Carries w Inked Inked (·.respan w.move) nested'.inline
  placeable : nested.placeable.Carries w Inked Anything (·.respan w.move) nested'.placeable

namespace Parser

variable {w : Frame} {c : Cursor}

-- ---------------------------------------------------------------------------
-- Names and numbers
-- ---------------------------------------------------------------------------

/-- A name that ends before the source does ends at the same place inside the frame. -/
theorem identifier_carries :
    identifier.Carries w Inked Inked (·.respan w.move) identifier := by
  intro c
  apply Frame.Agree.congr
  · intro hc
    rw [identifier, place_bind, Cursor.peek_inside (hc.ne_nil Inked.guard)]
  · rw [identifier, place_bind]
    cases c.peek with
    | none => exact Carries.agree (.fail _) c
    | some first =>
      refine Carries.agree (.ite (fun _ => ?_) fun _ => .fail _) c
      exact (Carries.takeWhile Inked.guard isNameChar).bind fun name =>
        (Carries.spanFrom c).bind fun span => .pure _ rfl

theorem digits_carries : digits.Carries w Inked Inked id digits :=
  (Carries.takeWhile Inked.guard Char.isDigit).bind fun run =>
    .ite (fun _ => .fail _) fun _ => .pure run rfl

/-- So does a number, and its sign and its period are seen in the source. -/
theorem number_carries : number.Carries w Inked Inked (·.respan w.move) number := by
  intro c
  apply Frame.Agree.congr
  · intro hc
    rw [number, place_bind, Cursor.peek_inside (hc.ne_nil Inked.guard)]
  · rw [number, place_bind]
    refine Carries.agree (.ite (fun _ => (Carries.skip Inked.guard 1).bind fun _ => ?_) fun _ => ?_) c
    all_goals
      refine digits_carries.bind fun whole => Carries.peek_bind Inked.guard fun next => .ite ?_ ?_
      · exact fun _ => (Carries.skip Inked.guard 1).bind fun _ => digits_carries.bind fun fraction =>
          (Carries.spanFrom c).bind fun span => .pure _ rfl
      · exact fun _ => (Carries.spanFrom c).bind fun span => .pure _ rfl

-- ---------------------------------------------------------------------------
-- Quoted text
-- ---------------------------------------------------------------------------

/-- Enough digits are all of them digits of the source itself. -/
private theorem escapeDigits_inside {count : Nat} {isHex : Char → Bool}
    (h : w.tail = [] ∨ ((c.rest.take count).takeWhile isHex).length = count) :
    ((c.inside w).rest.take count).takeWhile isHex = (c.rest.take count).takeWhile isHex := by
  obtain htail | hlen := h
  · rw [Cursor.inside_of_tail htail]
  · have hle := (List.takeWhile_sublist (l := c.rest.take count) isHex).length_le
    rw [hlen, List.length_take] at hle
    have hcount : count ≤ c.rest.length := by omega
    rw [Cursor.rest_inside, List.take_append_of_le_length hcount]

theorem unicodeEscape_carries (start : Cursor) (letter : Char) (count : Nat) :
    (unicodeEscape start letter count).Carries w Inked Inked id
      (unicodeEscape (start.inside w) letter count) := by
  refine (Carries.skip Inked.guard 1).bind fun _ c => ?_
  simp only [place_bind, skip_bind, ite_apply, pure_apply, spanFrom_bind, failAt_apply]
  split
  · next hlen =>
    intro hd
    rw [escapeDigits_inside (.inr hlen), if_pos hlen, Cursor.advance_inside _ (hd.ne_nil Inked.guard)]
    obtain ⟨text, hreads⟩ := c.reads_advance _
    exact ⟨hd.of_reads Inked.guard hreads, rfl⟩
  · next hlen =>
    intro htail
    rw [escapeDigits_inside (.inl htail), if_neg hlen, Cursor.advance_inside _ (.inl htail)]
    rfl

theorem escape_carries : escape.Carries w Inked Inked id escape :=
  Carries.place_bind fun start => (Carries.skip Inked.guard 1).bind fun _ =>
    Carries.peek_bind Inked.guard fun next => by
      split
      · exact (Carries.spanFrom start).bind fun span => .failAt _ rfl
      · exact unicodeEscape_carries start 'u' 4
      · exact unicodeEscape_carries start 'U' 6
      · exact (Carries.skip Inked.guard 1).bind fun _ => .ite (fun _ => .pure _ rfl) fun _ =>
          (Carries.spanFrom start).bind fun span => .failAt _ rfl

theorem quotedChar_carries (start : Cursor) :
    (quotedChar start).Carries w Inked Inked id (quotedChar (start.inside w)) :=
  Carries.peek_bind Inked.guard fun next => by
    split
    · exact (Carries.spanFrom start).bind fun span => .failAt _ rfl
    · exact (Carries.spanFrom start).bind fun span => .failAt _ rfl
    · exact escape_carries
    · exact (Carries.skip Inked.guard 1).bind fun _ => .pure _ rfl

/-- A quoted text is read up to its quote, which stands in the source. -/
theorem stringLiteral_carries :
    stringLiteral.Carries w Inked Inked (·.respan w.move) stringLiteral := by
  refine Carries.place_bind fun start => Carries.token_bind (M := Inked) rfl fun _ => ?_
  refine (Carries.gather (fun _ c hc => ?_) (fun _ => quotedChar_carries start) []).bind fun value => ?_
  · rw [Cursor.peek_inside (hc.ne_nil Inked.guard)]
  · refine Carries.token_bind (M := Inked) rfl fun _ => (Carries.spanFrom start).bind fun span => .pure _ ?_
    simp [StringLiteral.respan]

-- ---------------------------------------------------------------------------
-- Patterns
-- ---------------------------------------------------------------------------

section Pattern

variable {G : List Char → Prop} {placeable placeable' : Parser Placeable}

theorem countSpaces_carries (hG : Guard G) : countSpaces.Carries w G G id countSpaces :=
  (Carries.takeWhile hG Cursor.isSpace).bind fun _ => .pure _ rfl

/-- A piece asks for no more behind it than the placeables in the pattern do. -/
theorem piece_carries (hG : Guard G)
    (hplaceable : placeable.Carries w G G (·.respan w.move) placeable') :
    (piece placeable).Carries w G G (·.respan w.move) (piece placeable') := by
  intro c
  apply Frame.Agree.congr
  · intro hc
    rw [piece, place_bind, Cursor.peek_inside (hc.ne_nil hG)]
  · rw [piece, place_bind]
    generalize c.peek = first
    refine Carries.agree ?_ c
    split
    · exact (Carries.skipBlankLines hG).bind fun newlines => (countSpaces_carries hG).bind fun spaces =>
        (Carries.spanFrom c).bind fun span => .pure _ rfl
    · exact hplaceable.bind fun p => .pure _ rfl
    · exact .fail _
    · exact (Carries.takeWhile hG isPatternText).bind fun value =>
        (Carries.spanFrom c).bind fun span => .pure _ rfl

/-- In a rest that is lined, the source alone tells whether a pattern goes on. -/
theorem continuesPiece_inside (h : w.tail = [] ∨ Lined c.rest) :
    (c.inside w).continuesPiece = c.continuesPiece := by
  have hlines := c.skipBlankLines_inked.imp_right Inked.lined
  unfold Cursor.continuesPiece
  rw [Cursor.peek_inside (h.imp_right Lined.ne_nil),
    Cursor.skipBlankLines_inside (h.imp_right .inl),
    Cursor.continuesPattern_inside (.inr hlines)]

/-- The elements are made from the pieces alone, and moving these moves them. -/
theorem pattern_carries (hG : Guard G)
    (hplaceable : placeable.Carries w G G (·.respan w.move) placeable') (block : Bool) :
    (pattern placeable block).Carries w G G (·.respan w.move) (pattern placeable' block) := by
  refine Carries.place_bind fun start => ?_
  have hgather : ∀ opening, Parser.Carries w G G (List.map (·.respan w.move))
      (gather (fun _ c => c.continuesPiece) (fun _ => piece placeable) opening)
      (gather (fun _ c => c.continuesPiece) (fun _ => piece placeable')
        (opening.map (·.respan w.move))) :=
    .gather (fun _ c hc => continuesPiece_inside (hc.imp_right hG.lined))
      fun _ => piece_carries hG hplaceable
  have hpieces : (pieces placeable block).Carries w G G (List.map (·.respan w.move))
      (pieces placeable' block) := by
    refine .ite (fun _ => ?_) fun _ => hgather []
    refine Carries.bind (f := (·.respan w.move)) ?_ fun indent => hgather [indent]
    exact Carries.place_bind fun start => (countSpaces_carries hG).bind fun spaces =>
      (Carries.spanFrom start).bind fun span => .pure _ rfl
  refine hpieces.bind fun pieces => (Carries.spanFrom start).bind fun span => .pure _ ?_
  simp [Pattern.respan, Piece.elements_respan w.move_extend]

/-- Whether there is a value is decided behind the spaces, or behind the blank lines if a line ends there.
-/
theorem pattern?_carries (hG : Guard G)
    (hplaceable : placeable.Carries w G G (·.respan w.move) placeable') :
    (pattern? placeable).Carries w G G (Option.map (·.respan w.move)) (pattern? placeable') := by
  intro c
  have hpattern (block : Bool) : Parser.Carries w G G (Option.map (·.respan w.move))
      (do return some (← pattern placeable block)) (do return some (← pattern placeable' block)) :=
    (pattern_carries hG hplaceable block).bind fun p => .pure _ rfl
  have hspaces := c.reads_skipSpaces
  obtain ⟨blank, hblank⟩ := c.skipSpaces.skipBlankLines_ends
  have hlines := c.skipSpaces.skipBlankLines_inked.imp_right Inked.lined
  simp only [pattern?, place_bind, ite_apply, moveTo_bind]
  apply Frame.Agree.congr
  · intro hc
    have hlined : w.tail = [] ∨ Lined c.skipSpaces.rest :=
      hc.imp_right fun h => (hG.lined h).dropWhile_isSpace
    have hne := hlined.imp_right Lined.ne_nil
    have hskip : (c.inside w).skipSpaces = c.skipSpaces.inside w := Cursor.skipWhile_inside hne
    rw [hskip, Cursor.atEnd_inside hne, Cursor.peek_inside hne,
      Cursor.skipBlankLines_inside (hlined.imp_right .inl),
      Cursor.continuesPattern_inside (.inr hlines)]
  · split
    · split
      · exact (hpattern true _).before fun hd => ⟨hd.of_reads hG (hspaces.trans hblank.reads), rfl⟩
      · exact Carries.pure _ rfl c
    · exact (hpattern false _).before fun hd => ⟨hd.of_reads hG hspaces, rfl⟩

theorem requiredPattern_carries (hG : Guard G)
    (hplaceable : placeable.Carries w G G (·.respan w.move) placeable') :
    (requiredPattern placeable).Carries w G G (·.respan w.move) (requiredPattern placeable') :=
  (pattern?_carries hG hplaceable).bind fun found => by
    cases found with
    | none => exact .fail _
    | some p => exact .pure _ rfl

end Pattern

-- ---------------------------------------------------------------------------
-- Arguments
-- ---------------------------------------------------------------------------

/-- A look at two characters sees the same inside the frame if it does not care for a second
character that can start an entry. -/
private theorem look_inside {f : List Char → Bool}
    (htwo : ∀ a b r r', f (a :: b :: r) = f (a :: b :: r'))
    (hone : ∀ a k r, k.isAlpha ∨ k = '-' ∨ k = '#' → f (a :: k :: r) = f [a])
    (h : w.tail = [] ∨ c.rest ≠ []) : f (c.inside w).rest = f c.rest := by
  obtain htail | hne := h
  · rw [Cursor.inside_of_tail htail]
  · obtain ⟨rest, offset⟩ := c
    match rest with
    | [] => exact absurd rfl hne
    | [a] =>
      cases hw : w.tail with
      | nil => rw [Cursor.inside_of_tail hw]
      | cons k tail =>
        rw [Cursor.rest_inside, hw]
        exact hone a k tail (w.tail_head k (by simp [hw]))
    | a :: b :: r => exact htwo a b (r ++ w.tail) r

/-- A dash at the very end of the source is no sign: no digit opens the text behind it. -/
theorem startsNumber_inside (h : w.tail = [] ∨ c.rest ≠ []) :
    (c.inside w).startsNumber = c.startsNumber := by
  refine look_inside (f := fun rest => Cursor.startsNumber ⟨rest, 0⟩) ?_ ?_ h
  · intro a b r r'
    by_cases ha : a = '-' <;> simp [Cursor.startsNumber, ha]
  · intro a k r hk
    have hdigit : k.isDigit = false := by
      obtain halpha | rfl | rfl := hk
      · exact isDigit_of_isAlpha halpha
      · rfl
      · rfl
    by_cases ha : a = '-' <;> simp [Cursor.startsNumber, ha, hdigit]

/-- Which kind of literal it is shows in characters of the source. -/
theorem literal_carries : literal.Carries w Inked Inked (·.respan w.move) literal := by
  intro c
  simp only [literal, place_bind, ite_apply]
  apply Frame.Agree.congr
  · intro hc
    have hne := hc.ne_nil Inked.guard
    rw [startsNumber_inside hne, Cursor.peek_inside hne]
  · split
    · refine Carries.agree ?_ c
      exact number_carries.bind fun n => .pure _ rfl
    · split
      · refine Carries.agree ?_ c
        exact stringLiteral_carries.bind fun s => .pure _ rfl
      · exact Carries.agree (.fail _) c

/-- The names that are taken are compared as texts, which do not move. -/
theorem namedArgument_carries (taken : List NamedArgument) (e : Inline) :
    (namedArgument taken e).Carries w Inked Inked (·.respan w.move)
      (namedArgument (taken.map (·.respan w.move)) (e.respan w.move)) := by
  cases e with
  | messageRef id attr span =>
    cases attr with
    | none =>
      have htaken : (taken.map (·.respan w.move)).any (·.name.name == id.name) =
          taken.any (·.name.name == id.name) := by
        rw [List.any_map]; rfl
      change Parser.Carries w Inked Inked _ (if taken.any (·.name.name == id.name) then _ else _)
        (if (taken.map (·.respan w.move)).any (·.name.name == id.name) then _ else _)
      rw [htaken]
      refine .ite (fun _ => .failAt _ rfl) fun _ => (Carries.skip Inked.guard 1).bind fun _ => ?_
      exact (Carries.skipBlank Inked.guard).bind fun _ => literal_carries.bind fun l => .pure _ rfl
    | some attr => exact .failAt _ rfl
  | literal l => exact .failAt _ (Inline.span_respan ..).symm
  | functionCall callee args span => exact .failAt _ rfl
  | termRef id attr args span =>
    rw [Inline.respan_termRef]
    exact .failAt _ rfl
  | variableRef id span => exact .failAt _ rfl
  | placeable p => exact .failAt _ (Inline.span_respan ..).symm

section Nested

variable {nested nested' : Nested}

private theorem comma_carries {argument argument' : Argument}
    (h : argument.respan w.move = argument') :
    Parser.Carries w Inked Inked (·.respan w.move)
      (do
        skipBlank
        if (← peek) = some ',' then
          skip 1
          skipBlank
          return ⟨argument, true⟩
        else
          return ⟨argument, false⟩ : Parser ListedArgument)
      (do
        skipBlank
        if (← peek) = some ',' then
          skip 1
          skipBlank
          return ⟨argument', true⟩
        else
          return ⟨argument', false⟩) := by
  subst h
  refine (Carries.skipBlank Inked.guard).bind fun _ => Carries.peek_bind Inked.guard fun next =>
    .ite (fun _ => ?_) fun _ => .pure _ rfl
  exact (Carries.skip Inked.guard 1).bind fun _ => (Carries.skipBlank Inked.guard).bind fun _ =>
    .pure _ rfl

/-- Where arguments have names is not changed by moving them. -/
theorem listedArgument_carries (hnested : Nested.Carries w nested nested')
    (seen : List ListedArgument) :
    (listedArgument nested seen).Carries w Inked Inked (·.respan w.move)
      (listedArgument nested' (seen.map (·.respan w.move))) := by
  refine hnested.inline.bind fun e => (Carries.skipBlank Inked.guard).bind fun _ =>
    Carries.peek_bind Inked.guard fun next => .ite (fun _ => ?_) fun _ => ?_
  · rw [ListedArgument.named_respan]
    have hnamed := (namedArgument_carries (w := w) (ListedArgument.named seen) e).map
      (k := Argument.named) (g := (·.respan w.move)) fun _ => rfl
    exact hnamed.bind fun argument => comma_carries rfl
  · rw [ListedArgument.named_respan, List.isEmpty_map]
    refine .ite (fun _ => comma_carries rfl) fun _ => ?_
    exact .failAt _ (Inline.span_respan ..).symm

/-- The closing parenthesis stands in the source, so nothing is asked of what is left behind it. -/
theorem arguments_carries (hnested : Nested.Carries w nested nested') :
    (arguments nested).Carries w Inked Anything (·.respan w.move) (arguments nested') := by
  refine Carries.token_bind (M := Inked) rfl fun _ => (Carries.skipBlank Inked.guard).bind fun _ => ?_
  refine (Carries.gather (fun seen c hc => ?_) (listedArgument_carries hnested) []).bind fun listed => ?_
  · rw [moreArguments, moreArguments, Cursor.peek_inside (hc.ne_nil Inked.guard)]
    cases seen <;> rfl
  · refine Carries.token_bind rfl fun _ => .pure _ ?_
    rw [ListedArgument.named_respan, ListedArgument.positional_respan]
    simp [Arguments.respan]

-- ---------------------------------------------------------------------------
-- References
-- ---------------------------------------------------------------------------

theorem accessor_carries :
    accessor.Carries w Inked Inked (Option.map (·.respan w.move)) accessor :=
  Carries.peek_bind Inked.guard fun _ => .ite
    (fun _ => (Carries.skip Inked.guard 1).bind fun _ => identifier_carries.bind fun _ => .pure _ rfl)
    fun _ => .pure _ rfl

theorem variableRef_carries :
    variableRef.Carries w Inked Inked (·.respan w.move) variableRef :=
  Carries.place_bind fun start => (Carries.skip Inked.guard 1).bind fun _ =>
    identifier_carries.bind fun _ => (Carries.spanFrom start).bind fun _ => .pure _ rfl

/-- A call asks for nothing behind it, a reference without arguments does; so it is asked of both. -/
theorem termRef_carries (hnested : Nested.Carries w nested nested') :
    (termRef nested).Carries w Inked Inked (·.respan w.move) (termRef nested') := by
  refine Carries.place_bind fun start => (Carries.skip Inked.guard 1).bind fun _ =>
    identifier_carries.bind fun id => accessor_carries.bind fun attr =>
      (Carries.skipBlankBefore '(').bind fun called => .ite (fun _ => ?_) fun _ => ?_
  · have hargs := ((arguments_carries hnested).mono (fun _ h => h) fun _ _ => trivial).map
      (H := Inked) (k := some) (g := Option.map (·.respan w.move)) fun _ => rfl
    exact hargs.bind fun args => (Carries.spanFrom start).bind fun span =>
      .pure _ (Inline.respan_termRef ..)
  · refine Carries.bind (f := Option.map (·.respan w.move)) (.pure none rfl) fun args => ?_
    exact (Carries.spanFrom start).bind fun span => .pure _ (Inline.respan_termRef ..)

/-- Whether it is a call shows behind the blanks, if something that is no blank is left. -/
theorem callOrMessageRef_carries (hnested : Nested.Carries w nested nested') :
    (callOrMessageRef nested).Carries w Inked Inked (·.respan w.move) (callOrMessageRef nested') := by
  refine Carries.place_bind fun start => identifier_carries.bind fun id c => ?_
  rw [place_bind, place_bind]
  apply Frame.Agree.congr
  · intro hc
    rw [(Cursor.skipBlank_inside hc).2]
  · refine Carries.agree (.ite (fun _ => .ite (fun _ => ?_) fun _ => .failAt _ rfl) fun _ => ?_) c
    · have hargs := (arguments_carries hnested).mono (K := Inked) (fun _ h => h) fun _ _ => trivial
      exact (Carries.skipBlank Inked.guard).bind fun _ => hargs.bind fun args =>
        (Carries.spanFrom start).bind fun span => .pure _ rfl
    · exact accessor_carries.bind fun attr => (Carries.spanFrom start).bind fun span => .pure _ rfl

-- ---------------------------------------------------------------------------
-- Selections
-- ---------------------------------------------------------------------------

/-- A star at the very end of the source starts no variant: no bracket opens the text behind it. -/
theorem startsVariant_inside (h : w.tail = [] ∨ c.rest ≠ []) :
    (c.inside w).startsVariant = c.startsVariant := by
  refine look_inside (f := fun rest => Cursor.startsVariant ⟨rest, 0⟩) ?_ ?_ h
  · intro a b r r'
    unfold Cursor.startsVariant
    split <;> simp_all
  · intro a k r hk
    have hbracket : k ≠ '[' := by
      rintro rfl
      exact absurd hk (by decide)
    unfold Cursor.startsVariant
    split <;> simp_all

theorem variantKey_carries : variantKey.Carries w Inked Inked (·.respan w.move) variantKey := by
  intro c
  simp only [variantKey, place_bind, ite_apply]
  apply Frame.Agree.congr
  · intro hc
    rw [startsNumber_inside (hc.ne_nil Inked.guard)]
  · split
    · refine Carries.agree ?_ c
      exact number_carries.bind fun n => .pure _ rfl
    · refine Carries.agree ?_ c
      exact identifier_carries.bind fun id => .pure _ rfl

/-- Variants that are moved have their default where they had it. -/
theorem defaultMark_carries (seen : List Variant) :
    (defaultMark seen).Carries w Inked Inked id (defaultMark (seen.map (·.respan w.move))) := by
  have hseen : (seen.map (·.respan w.move)).any (·.isDefault) = seen.any (·.isDefault) := by
    simp [List.any_map, Function.comp_def]
  refine Carries.peek_bind Inked.guard fun next => .ite (fun _ => ?_) fun _ => .pure _ rfl
  rw [hseen]
  exact .ite (fun _ => .fail _) fun _ => (Carries.skip Inked.guard 1).bind fun _ => .pure _ rfl

theorem variant_carries (hnested : Nested.Carries w nested nested') (seen : List Variant) :
    (variant nested seen).Carries w Inked Inked (·.respan w.move)
      (variant nested' (seen.map (·.respan w.move))) := by
  have hvalue := requiredPattern_carries Inked.guard
    (hnested.placeable.mono (K := Inked) (fun _ h => h) fun _ _ => trivial)
  refine Carries.place_bind fun start => (defaultMark_carries seen).bind fun isDefault =>
    Carries.token_bind (M := Inked) rfl fun _ => (Carries.skipBlank Inked.guard).bind fun _ =>
      variantKey_carries.bind fun key => (Carries.skipBlank Inked.guard).bind fun _ =>
        Carries.token_bind (M := Inked) rfl fun _ => ?_
  exact hvalue.bind fun value => (Carries.spanFrom start).bind fun span => .pure _ rfl

theorem variantLine_carries (hnested : Nested.Carries w nested nested') (seen : List Variant) :
    (variantLine nested seen).Carries w Inked Inked (·.respan w.move)
      (variantLine nested' (seen.map (·.respan w.move))) :=
  (variant_carries hnested seen).bind fun _ => (Carries.lineEnd Inked.guard).bind fun _ =>
    (Carries.skipBlank Inked.guard).bind fun _ => .pure _ rfl

/-- There are as many variants as before, and as many defaults. -/
theorem variants_carries (hnested : Nested.Carries w nested nested') :
    (variants nested).Carries w Inked Inked (List.map (·.respan w.move)) (variants nested') := by
  refine (Carries.skipBlank Inked.guard).bind fun _ =>
    (Carries.gather (fun _ c hc => ?_) (variantLine_carries hnested) []).bind fun vs => ?_
  · exact startsVariant_inside (hc.ne_nil Inked.guard)
  · rw [List.isEmpty_map, List.any_map, Function.comp_def]
    simp only [Variant.isDefault_respan]
    exact .ite (fun _ => .fail _) fun _ => .ite (fun _ => .pure _ rfl) fun _ => .fail _

/-- At the arrow: the span of the selection starts with its selector. -/
theorem selection_carries (hnested : Nested.Carries w nested nested') (start : Cursor)
    (selector : Inline) :
    (selection nested start selector).Carries w Inked Inked (·.respan w.move)
      (selection nested' (start.inside w) (selector.respan w.move)) := by
  unfold selection
  rw [Inline.selectorFault?_respan]
  split
  · exact .failAt _ (Inline.span_respan ..).symm
  · refine (Carries.skip Inked.guard 2).bind fun _ => (Carries.skipSpaces Inked.guard).bind fun _ =>
      (Carries.lineEnd Inked.guard).bind fun _ => (variants_carries hnested).bind fun vs =>
        (Carries.spanFrom start).bind fun span => .pure _ ?_
    simp [Selection.respan]

-- ---------------------------------------------------------------------------
-- Placeables
-- ---------------------------------------------------------------------------

/-- A dash at the very end of the source starts no arrow. -/
theorem arrow_inside (h : w.tail = [] ∨ c.rest ≠ []) :
    ['-', '>'].isPrefixOf (c.inside w).rest = ['-', '>'].isPrefixOf c.rest := by
  refine look_inside (f := (['-', '>'].isPrefixOf ·)) ?_ ?_ h
  · intro a b r r'
    simp [List.isPrefixOf]
  · intro a k r hk
    have harrow : k ≠ '>' := by
      rintro rfl
      exact absurd hk (by decide)
    simp [List.isPrefixOf, harrow.symm]

/-- A reference to an attribute of a term is refused in both runs, and it is one however it is moved. -/
theorem expression_carries (hnested : Nested.Carries w nested nested') :
    (expression nested).Carries w Inked Inked (·.respan w.move) (expression nested') := by
  refine Carries.place_bind fun start => hnested.inline.bind fun e =>
    (Carries.skipBlank Inked.guard).bind fun _ c => ?_
  rw [place_bind, place_bind]
  apply Frame.Agree.congr
  · intro hc
    rw [arrow_inside (hc.ne_nil Inked.guard)]
  · refine Carries.agree (.ite (fun _ => ?_) fun _ => ?_) c
    · exact (selection_carries hnested start e).bind fun s => .pure _ rfl
    · cases e with
      | termRef id attr args span =>
        rw [Inline.respan_termRef]
        cases attr with
        | none => exact .pure _ (by simp [Expression.respan])
        | some attr => exact .failAt _ rfl
      | literal | functionCall | messageRef | variableRef | placeable => exact .pure _ rfl

/-- The closing brace stands in the source, so nothing is asked of what is left behind it. -/
theorem placeableWith_carries (hnested : Nested.Carries w nested nested') :
    (placeableWith nested).Carries w Inked Anything (·.respan w.move) (placeableWith nested') :=
  Carries.place_bind fun start => Carries.token_bind rfl fun _ =>
    (Carries.skipBlank Inked.guard).bind fun _ => (expression_carries hnested).bind fun _ =>
      Carries.token_bind rfl fun _ => (Carries.spanFrom start).bind fun _ => .pure _ rfl

/-- The kind of an expression shows in its first characters, which are in the source. -/
theorem inlineWith_carries (hnested : Nested.Carries w nested nested') :
    (inlineWith nested).Carries w Inked Inked (·.respan w.move) (inlineWith nested') := by
  intro c
  simp only [inlineWith, place_bind, ite_apply]
  apply Frame.Agree.congr
  · intro hc
    have hne := hc.ne_nil Inked.guard
    rw [startsNumber_inside hne, Cursor.peek_inside hne]
  · split
    · refine Carries.agree ?_ c
      exact number_carries.bind fun n => .pure _ rfl
    · generalize c.peek = first
      refine Carries.agree ?_ c
      split
      · have hplaceable := (placeableWith_carries hnested).mono (K := Inked) (fun _ h => h)
          fun _ _ => trivial
        exact hplaceable.bind fun p => .pure _ rfl
      · exact stringLiteral_carries.bind fun s => .pure _ rfl
      · exact variableRef_carries
      · exact termRef_carries hnested
      · exact .ite (fun _ => callOrMessageRef_carries hnested) fun _ => .fail _
      · exact .fail _

end Nested

/-- By induction on what is left of the source: what is nested is read from further on. -/
private theorem nested_carries (c : Cursor) :
    w.Agree Inked Inked (·.respan w.move) c (inline c) (inline (c.inside w)) ∧
      w.Agree Inked Anything (·.respan w.move) c (Parser.placeable c)
        (Parser.placeable (c.inside w)) := by
  have hwithin : ∀ c : Cursor, (∀ d : Cursor, d.rest.length < c.rest.length →
      w.Agree Inked Inked (·.respan w.move) d (inline d) (inline (d.inside w)) ∧
        w.Agree Inked Anything (·.respan w.move) d (Parser.placeable d)
          (Parser.placeable (d.inside w))) →
      Nested.Carries w (within c.rest.length) (within (c.inside w).rest.length) := by
    intro c hshorter
    rw [Cursor.rest_inside, List.length_append]
    exact ⟨.below fun d h _ => (hshorter d h).1, .below fun d h _ => (hshorter d h).2⟩
  refine nested_induction
    (P := fun c r => w.Agree Inked Inked (·.respan w.move) c r (inline (c.inside w)))
    (Q := fun c r => w.Agree Inked Anything (·.respan w.move) c r (Parser.placeable (c.inside w)))
    (fun c hshorter => ?_) (fun c hshorter => ?_) c
  · rw [inline_eq]
    exact inlineWith_carries (hwithin c hshorter) c
  · rw [placeable_eq]
    exact placeableWith_carries (hwithin c hshorter) c

theorem placeable_carries :
    Parser.Carries w Inked Anything (·.respan w.move) Parser.placeable Parser.placeable :=
  fun c => (nested_carries c).2

end Parser

end MessageLint
