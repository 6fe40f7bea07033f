-- SUMMARY: Names, patterns and expressions are read alike with a line end behind the source.
import MessageLint.Proofs.FinalNewline.Basic

/-!
# Expressions in front of a final line end

Braces, parentheses, brackets and quotes have to be closed, and what closes them is no blank. So
whatever is read between them is read alike with and without the line end: where a parser in there
gets lost in the blanks at the end of the source, the construct around it fails in both.
-/

namespace MessageLint

/-- Both parsers for what is nested in a construct do the same and must find something. -/
structure Nested.Closes (nested nested' : Nested) : Prop where
  inline : Parser.Closes nested.inline nested'.inline
  placeable : Parser.Closes nested.placeable nested'.placeable

namespace Parser

variable {c start start' : Cursor}

-- ---------------------------------------------------------------------------
-- Names and numbers
-- ---------------------------------------------------------------------------

/-- No name starts with a blank. -/
theorem identifier_refuses : Refuses identifier := fun ⟨rest, offset⟩ hc => by
  obtain rfl | ⟨r, rfl | rfl⟩ := blank_cases hc
  all_goals exact ⟨_, rfl⟩

/-- A line end is no character of a name: it ends one just as the end of the source does. -/
theorem identifier_mirrors : Mirrors identifier identifier := fun c => by
  rw [identifier, place_bind, place_bind, Cursor.peek_ended]
  cases c.peek with
  | none => exact .error _ _
  | some first =>
    simp only [Option.getD_some, ite_apply]
    split
    · exact ((Mirrors.takeWhile rfl).bind fun name => .spanned rfl _) c
    · exact .error _ _

theorem identifier_closes : Closes identifier identifier :=
  ⟨identifier_mirrors, identifier_refuses, identifier_refuses⟩

theorem digits_refuses : Refuses digits := fun ⟨rest, offset⟩ hc => by
  obtain rfl | ⟨r, rfl | rfl⟩ := blank_cases hc
  all_goals exact ⟨_, rfl⟩

/-- It is no digit either, and there must be one. -/
theorem digits_mirrors : Mirrors digits digits :=
  (Mirrors.takeWhile rfl).bind fun run => by
    split
    · exact .fail _ _
    · exact .pure run

theorem digits_closes : Closes digits digits := ⟨digits_mirrors, digits_refuses, digits_refuses⟩

theorem number_refuses : Refuses number := .place_bind fun start => by
  split
  · exact (Loses.skip 1).bind_refuses fun _ => digits_refuses.bind _
  · exact digits_refuses.bind _

/-- A sign and a period need digits behind them; where only blanks follow, both runs fail. -/
theorem number_mirrors : Mirrors number number := fun c => by
  have hskip : ∀ {f f' : Unit → Parser NumberLiteral}, (∀ u, Closes (f u) (f' u)) →
      Mirrors (skip 1 >>= f) (skip 1 >>= f') := fun hf => ((Echoes.skip 1).bind_closes hf).mirrors
  rw [number, place_bind, place_bind]
  simp only [Cursor.peek_ended_iff (show '-' ≠ '\n' by decide), ite_apply]
  split
  · refine hskip (fun _ => digits_closes.bind fun whole => ?_) c
    refine .peek_ite (by decide) ?_ (.spanned rfl _)
    exact hskip fun _ => digits_closes.bind fun fraction => .spanned rfl _
  · refine Mirrors.bind digits_mirrors (fun whole => ?_) c
    refine .peek_ite (by decide) ?_ (.spanned rfl _)
    exact hskip fun _ => digits_closes.bind fun fraction => .spanned rfl _

-- ---------------------------------------------------------------------------
-- Quoted text
-- ---------------------------------------------------------------------------

/-- A line end is no hexadecimal digit. -/
private theorem escapeDigits_ended (count : Nat) (c : Cursor) :
    (c.ended.rest.take count).takeWhile (fun ch => (hexDigit? ch).isSome) =
      (c.rest.take count).takeWhile fun ch => (hexDigit? ch).isSome := by
  by_cases hcount : count ≤ c.rest.length
  · rw [Cursor.rest_ended, List.take_append_of_le_length hcount]
  · rw [List.take_of_length_le (by simp; omega), List.take_of_length_le (by omega)]
    exact Cursor.takeWhile_ended rfl

/-- Too few digits are a fault in both runs, whatever ends them. -/
theorem unicodeEscape_same {letter : Char} {count : Nat} (hc : c.rest ≠ []) :
    Same (unicodeEscape start letter count c) (unicodeEscape start.ended letter count c.ended) := by
  refine .skip_bind hc ?_
  have hle := (List.takeWhile_sublist (l := c.next.rest.take count)
    fun ch => (hexDigit? ch).isSome).length_le.trans (List.length_take_le' count _)
  rw [place_bind, place_bind, escapeDigits_ended, Parser.skip_bind, Parser.skip_bind,
    Cursor.advance_ended hle, ite_apply, ite_apply]
  split
  · exact .ok _ _
  · exact .error _ _

/-- Neither the end of the source nor a line end can be escaped. -/
theorem escape_same (hc : c.rest ≠ []) : Same (escape c) (escape c.ended) := by
  rw [escape, place_bind, place_bind]
  refine .skip_bind hc (.peek_bind (fun _ => .error _ _) fun hletter first _ => ?_)
  split
  · exact .error _ _
  · exact unicodeEscape_same hletter
  · exact unicodeEscape_same hletter
  · refine .skip_bind hletter ?_
    rw [ite_apply, ite_apply]
    split
    · exact .ok _ _
    · exact .error _ _

/-- A quoted text does not go over the end of a line, so the line end behind the source is not in one. -/
theorem quotedChar_mirrors : Mirrors (quotedChar start) (quotedChar start') := fun c =>
  .peek_bind (fun _ => .error _ _) fun hc first _ => by
    split
    · exact .error _ _
    · exact .error _ _
    · exact escape_same hc
    · exact .skip_bind hc (.ok _ _)

/-- Where the quote at the end is missing, both runs fail. -/
theorem stringLiteral_closes : Closes stringLiteral stringLiteral :=
  .place_bind fun start start' hstart => (Closes.token rfl).bind fun _ =>
    (Mirrors.gather (fun _ c => by simp [Cursor.peek_ended_iff])
      (fun _ c _ => quotedChar_mirrors c) []).bind fun value =>
    (Closes.token rfl).mirrors.bind fun _ => .spanned hstart _

-- ---------------------------------------------------------------------------
-- Patterns
-- ---------------------------------------------------------------------------

section Pattern

variable {placeable placeable' : Parser Placeable}

theorem countSpaces_mirrors : Mirrors countSpaces countSpaces :=
  (Mirrors.takeWhile rfl).bind fun _ => .pure _

/-- Where a pattern goes on, its next piece ends before the blanks at the end of the source. -/
theorem piece_same (hplaceable : Mirrors placeable placeable') (h : c.continuesPiece) :
    Same (piece placeable c) (piece placeable' c.ended) := by
  have hne : c.rest ≠ [] := by
    intro hnil
    simp [Cursor.continuesPiece, Cursor.peek, hnil] at h
  have hlines : c.peek = some '\n' → ∀ f f' : Nat → Parser Piece, (∀ n, Mirrors (f n) (f' n)) →
      Same ((skipBlankLines >>= f) c) ((skipBlankLines >>= f') c.ended) := by
    intro hpeek f f' hf
    rw [Cursor.continuesPiece, hpeek] at h
    rw [skipBlankLines_bind, skipBlankLines_bind,
      Cursor.skipBlankLines_ended (Cursor.inked_of_continuesPattern h)]
    exact hf _ _
  rw [piece, piece, place_bind, place_bind, Cursor.peek_ended_of_ne hne]
  generalize c.peek = first at hlines
  split
  · exact hlines rfl _ _ fun newlines => countSpaces_mirrors.bind fun spaces => .spanned rfl _
  · exact hplaceable.bind (fun p => .pure _) c
  · exact .error _ _
  · exact (Mirrors.takeWhile rfl).bind (fun value => .spanned rfl _) c

/-- Pieces are read as long as the pattern goes on, and a line end behind the source does not make it go
on. -/
theorem pattern_mirrors (hplaceable : Mirrors placeable placeable') (block : Bool) :
    Mirrors (pattern placeable block) (pattern placeable' block) := by
  have hgather : ∀ opening, Mirrors
      (gather (fun _ c => c.continuesPiece) (fun _ => piece placeable) opening)
      (gather (fun _ c => c.continuesPiece) (fun _ => piece placeable') opening) :=
    .gather (fun _ c => c.continuesPiece_ended) fun _ _ h => piece_same hplaceable h
  have hindent : Mirrors blockIndent blockIndent :=
    .place_bind fun start => countSpaces_mirrors.bind fun spaces => .spanned rfl _
  have hpieces : Mirrors (pieces placeable block) (pieces placeable' block) := by
    unfold pieces
    split
    · exact hindent.bind fun indent => hgather [indent]
    · exact hgather []
  exact .place_bind fun start => hpieces.bind fun pieces => .spanned rfl _

/-- A value that is missing at the end of the source is missing in front of the line end too. -/
theorem pattern?_mirrors (hplaceable : Mirrors placeable placeable') :
    Mirrors (pattern? placeable) (pattern? placeable') := fun c => by
  have hpattern (block : Bool) : Mirrors (do return some (← pattern placeable block))
      (do return some (← pattern placeable' block)) :=
    (pattern_mirrors hplaceable block).bind fun p => .pure (some p)
  have hend : (c.skipSpaces.ended.atEnd || decide (c.skipSpaces.ended.peek = some '\n')) =
      (c.skipSpaces.atEnd || decide (c.skipSpaces.peek = some '\n')) := by
    rw [Cursor.atEnd_ended, Cursor.peek_ended]
    cases hrest : c.skipSpaces.rest <;> simp [Cursor.atEnd, Cursor.peek, hrest]
  simp only [pattern?, place_bind, ite_apply, moveTo_bind, Cursor.skipSpaces_ended, hend,
    Cursor.continuesPattern_skipBlankLines_ended]
  split
  · split
    · next hgoes =>
      rw [Cursor.skipBlankLines_ended (Cursor.inked_of_continuesPattern hgoes)]
      exact hpattern true _
    · exact .ok _ _
  · exact hpattern false _

theorem requiredPattern_mirrors (hplaceable : Mirrors placeable placeable') :
    Mirrors (requiredPattern placeable) (requiredPattern placeable') :=
  (pattern?_mirrors hplaceable).bind fun found => by
    cases found with
    | none => exact .fail _ _
    | some p => exact .pure p

end Pattern

-- ---------------------------------------------------------------------------
-- Arguments
-- ---------------------------------------------------------------------------

/-- A literal is known by its first character, which is no blank. -/
theorem literal_closes : Closes literal literal := by
  have hrefuses : Refuses literal := .place_bind fun start => by
    split
    · exact number_refuses.bind _
    · split
      · exact stringLiteral_closes.refuses.bind _
      · exact fun _ _ => ⟨_, rfl⟩
  refine ⟨fun c => ?_, hrefuses, hrefuses⟩
  rw [literal, place_bind, place_bind]
  simp only [Cursor.startsNumber_ended, Cursor.peek_ended_iff (show '"' ≠ '\n' by decide), ite_apply]
  split
  · exact number_mirrors.bind (fun n => .pure _) c
  · split
    · exact stringLiteral_closes.mirrors.bind (fun s => .pure _) c
    · exact .error _ _

/-- Behind the colon there may be nothing but blanks; the value is missing then in both runs. -/
theorem namedArgument_echoes (taken : List NamedArgument) (e : Inline) :
    Echoes (namedArgument taken e) (namedArgument taken e) := by
  unfold namedArgument
  split
  · split
    · exact .failAt _ _ _ _
    · exact (Echoes.skip 1).bind fun _ => Echoes.skipBlank.bind fun _ =>
        literal_closes.echoes.bind fun l => .pure _
  · exact .failAt _ _ _ _

section Nested

variable {nested nested' : Nested}

private theorem comma_echoes (argument : Argument) :
    let comma : Parser ListedArgument := do
      skipBlank
      if (← peek) = some ',' then
        skip 1
        skipBlank
        return ⟨argument, true⟩
      else
        return ⟨argument, false⟩
    Echoes comma comma :=
  Echoes.skipBlank.bind fun _ => .peek_ite (by decide)
    ((Echoes.skip 1).bind fun _ => Echoes.skipBlank.bind fun _ => .pure _) (.pure _)

/-- An argument may get lost in the blanks around its comma. -/
theorem listedArgument_echoes (hnested : Nested.Closes nested nested') (seen : List ListedArgument) :
    Echoes (listedArgument nested seen) (listedArgument nested' seen) := by
  refine hnested.inline.echoes.bind fun e => Echoes.skipBlank.bind fun _ =>
    .peek_ite (by decide) ?_ ?_
  · exact ((namedArgument_echoes _ e).map Argument.named).bind fun argument => comma_echoes argument
  · split
    · exact comma_echoes _
    · exact .failAt _ _ _ _

/-- Only a parenthesis ends a list of arguments, so a line end does not. -/
theorem moreArguments_ended (seen : List ListedArgument) (c : Cursor) :
    moreArguments seen c.ended = moreArguments seen c := by
  simp [moreArguments, Cursor.peek_ended_iff]

/-- Where the list gets lost in blanks, the closing parenthesis is missing in both runs. -/
theorem arguments_closes (hnested : Nested.Closes nested nested') :
    Closes (arguments nested) (arguments nested') := by
  refine (Closes.token rfl).bind fun _ => (Echoes.skipBlank.bind_closes fun _ => ?_).mirrors
  have hlisted := Echoes.gather moreArguments_ended (listedArgument_echoes hnested) []
  exact hlisted.bind_closes fun listed => (Closes.token rfl).bind fun _ => .pure _

-- ---------------------------------------------------------------------------
-- References
-- ---------------------------------------------------------------------------

/-- A period at the end of the source lacks its name, with a line end behind it or not. -/
theorem accessor_mirrors : Mirrors accessor accessor :=
  .peek_ite (by decide)
    ((Echoes.skip 1).bind_closes fun _ => identifier_closes.bind fun id => .pure (some id)).mirrors
    (.pure none)

theorem variableRef_closes : Closes variableRef variableRef :=
  .place_bind fun _ _ hstart => (Echoes.skip 1).bind_closes fun _ =>
    identifier_closes.bind fun _ => .spanned hstart _

/-- Blanks behind a name are passed only on the way to a parenthesis. -/
theorem termRef_closes (hnested : Nested.Closes nested nested') :
    Closes (termRef nested) (termRef nested') := by
  refine .place_bind fun start start' hstart => (Echoes.skip 1).bind_closes fun _ =>
    identifier_closes.bind fun id => accessor_mirrors.bind fun attr =>
      (Mirrors.skipBlankBefore rfl).bind fun called => ?_
  split
  · exact ((arguments_closes hnested).mirrors.map some).bind fun args => .spanned hstart _
  · exact (Mirrors.pure none).bind fun args => .spanned hstart _

/-- What follows the blanks behind a name tells a call from a reference; the line end is one blank more.
-/
theorem callOrMessageRef_closes (hnested : Nested.Closes nested nested') :
    Closes (callOrMessageRef nested) (callOrMessageRef nested') := by
  refine .place_bind fun start start' hstart => identifier_closes.bind fun id =>
    .look (P := fun c => c.skipBlank.peek = some '(') (fun c => Cursor.peek_skipBlank_ended rfl) ?_ ?_
  · split
    · exact (Echoes.skipBlank.bind_closes fun _ => (arguments_closes hnested).bind fun args =>
        .spanned hstart _).mirrors
    · exact .failAt _ _ _ _
  · exact accessor_mirrors.bind fun attr => .spanned hstart _

-- ---------------------------------------------------------------------------
-- Selections
-- ---------------------------------------------------------------------------

/-- A key is known by its first character, as a literal is. -/
theorem variantKey_closes : Closes variantKey variantKey := by
  have hrefuses : Refuses variantKey := .place_bind fun start => by
    split
    · exact number_refuses.bind _
    · exact identifier_refuses.bind _
  refine ⟨?_, hrefuses, hrefuses⟩
  exact .look (P := fun c => c.startsNumber = true) (fun c => by rw [Cursor.startsNumber_ended])
    (number_mirrors.bind fun n => .pure _) (identifier_mirrors.bind fun id => .pure _)

theorem defaultMark_echoes (seen : List Variant) : Echoes (defaultMark seen) (defaultMark seen) := by
  refine .peek_ite (by decide) ?_ (.pure false)
  split
  · exact .fail _ _
  · exact (Echoes.skip 1).bind fun _ => .pure true

/-- The bracket behind the key has to be there, and so has the value. -/
theorem variant_closes (hnested : Nested.Closes nested nested') (seen : List Variant) :
    Closes (variant nested seen) (variant nested' seen) := by
  refine .place_bind fun start start' hstart => (defaultMark_echoes seen).bind_closes fun isDefault =>
    (Closes.token rfl).bind fun _ => (Echoes.skipBlank.bind_closes fun _ => ?_).mirrors
  refine variantKey_closes.bind fun key => (Echoes.skipBlank.bind_closes fun _ => ?_).mirrors
  exact (Closes.token rfl).bind fun _ =>
    (requiredPattern_mirrors hnested.placeable.mirrors).bind fun value => .spanned hstart _

/-- The blanks behind a variant may be all that is left. -/
theorem variantLine_echoes (hnested : Nested.Closes nested nested') (seen : List Variant) :
    Echoes (variantLine nested seen) (variantLine nested' seen) :=
  (variant_closes hnested seen).echoes.bind fun v => Echoes.lineEnd.bind fun _ =>
    Echoes.skipBlank.bind fun _ => .pure v

/-- A variant with nothing but blanks behind it is the last one in both runs. -/
theorem variants_echoes (hnested : Nested.Closes nested nested') :
    Echoes (variants nested) (variants nested') := by
  have hlines := Echoes.gather (fun _ c => c.startsVariant_ended) (variantLine_echoes hnested) []
  refine Echoes.skipBlank.bind fun _ => hlines.bind fun vs => ?_
  split
  · exact .fail _ _
  · split
    · exact .pure vs
    · exact .fail _ _

/-- So a selection may get lost behind its last variant. -/
theorem selection_echoes (hnested : Nested.Closes nested nested')
    (hstart : start'.offset = start.offset) (selector : Inline) :
    Echoes (selection nested start selector) (selection nested' start' selector) := by
  unfold selection
  split
  · exact .failAt _ _ _ _
  · exact (Echoes.skip 2).bind fun _ => Echoes.skipSpaces.bind fun _ =>
      Echoes.lineEnd.bind fun _ => (variants_echoes hnested).bind fun vs => .spanned hstart _

-- ---------------------------------------------------------------------------
-- Placeables
-- ---------------------------------------------------------------------------

/-- An arrow is there or not, whatever stands behind the source. -/
theorem expression_echoes (hnested : Nested.Closes nested nested') :
    Echoes (expression nested) (expression nested') := by
  refine .place_bind fun start start' hstart => hnested.inline.echoes.bind fun e =>
    Echoes.skipBlank.bind fun _ =>
      .look (P := fun c => ['-', '>'].isPrefixOf c.rest = true) (fun c => by rw [c.arrow_ended]) ?_ ?_
  · exact (selection_echoes hnested hstart e).bind fun s => .pure _
  · split
    · exact .failAt _ _ _ _
    · exact .pure _

/-- Where the expression gets lost in blanks, the closing brace is missing in both runs. -/
theorem placeableWith_closes (hnested : Nested.Closes nested nested') :
    Closes (placeableWith nested) (placeableWith nested') := by
  refine .place_bind fun start start' hstart => (Closes.token rfl).bind fun _ =>
    (Echoes.skipBlank.bind_closes fun _ => (expression_echoes hnested).bind_closes fun e => ?_).mirrors
  exact (Closes.token rfl).bind fun _ => .spanned hstart _

/-- The first character tells what kind of expression follows, and a line end starts none. -/
theorem inlineWith_mirrors (hnested : Nested.Closes nested nested') :
    Mirrors (inlineWith nested) (inlineWith nested') := fun c => by
  rw [inlineWith, inlineWith, place_bind, place_bind, Cursor.startsNumber_ended]
  rw [ite_apply, ite_apply]
  split
  · exact number_mirrors.bind (fun n => .pure _) c
  · by_cases hc : c.rest = []
    · rw [Cursor.peek_ended]
      simp only [Cursor.peek, hc, List.head?_nil]
      exact .error _ _
    · rw [Cursor.peek_ended_of_ne hc]
      generalize c.peek = first
      split
      · exact (placeableWith_closes hnested).mirrors.bind (fun p => .pure _) c
      · exact stringLiteral_closes.mirrors.bind (fun s => .pure _) c
      · exact variableRef_closes.mirrors c
      · exact (termRef_closes hnested).mirrors c
      · rw [ite_apply, ite_apply]
        split
        · exact (callOrMessageRef_closes hnested).mirrors c
        · exact .error _ _
      · exact .error _ _

end Nested

-- ---------------------------------------------------------------------------
-- The knot
-- ---------------------------------------------------------------------------

theorem inlineWith_refuses (nested : Nested) : Refuses (inlineWith nested) :=
  fun ⟨rest, offset⟩ hc => by
    obtain rfl | ⟨r, rfl | rfl⟩ := blank_cases hc
    all_goals exact ⟨_, rfl⟩

theorem placeableWith_refuses (nested : Nested) : Refuses (placeableWith nested) :=
  .place_bind fun _ => (Refuses.token rfl).bind _

theorem inline_refuses : Refuses inline := fun c hc => by
  rw [inline_eq]
  exact inlineWith_refuses _ c hc

theorem placeable_refuses : Refuses Parser.placeable := fun c hc => by
  rw [placeable_eq]
  exact placeableWith_refuses _ c hc

/-- By induction on what is left of the source: what is nested is read from further on. -/
private theorem nested_mirrors (c : Cursor) :
    Same (inline c) (inline c.ended) ∧ Same (Parser.placeable c) (Parser.placeable c.ended) := by
  have hwithin : ∀ c : Cursor, (∀ d : Cursor, d.rest.length < c.rest.length →
      Same (inline d) (inline d.ended) ∧ Same (Parser.placeable d) (Parser.placeable d.ended)) →
      Nested.Closes (within c.rest.length) (within c.ended.rest.length) := by
    intro c hshorter
    rw [Cursor.rest_ended, List.length_append]
    exact ⟨.below (fun d h _ => (hshorter d h).1) (fun d _ => inline_refuses d)
        fun d _ => inline_refuses d,
      .below (fun d h _ => (hshorter d h).2) (fun d _ => placeable_refuses d)
        fun d _ => placeable_refuses d⟩
  refine nested_induction (P := fun c r => Same r (inline c.ended))
    (Q := fun c r => Same r (Parser.placeable c.ended)) (fun c hshorter => ?_)
    (fun c hshorter => ?_) c
  · rw [inline_eq]
    exact inlineWith_mirrors (hwithin c hshorter) c
  · rw [placeable_eq]
    exact (placeableWith_closes (hwithin c hshorter)).mirrors c

theorem placeable_mirrors : Mirrors Parser.placeable Parser.placeable := fun c => (nested_mirrors c).2

end Parser

end MessageLint
