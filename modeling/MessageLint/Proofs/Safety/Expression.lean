-- SUMMARY: Runs of the parsers for names, patterns and expressions are safe.
import MessageLint.Proofs.Safety.Basic
import MessageLint.Proofs.WellFormed.Pattern

/-!
# Safety below entries

For each parser below the level of entries: its runs in the source are safe, and they promise one more
byte where the parser must read something. Constructs are compared under two choices of the parsers
for what is nested in them that agree behind the place where they are called (`Nested.Agree`), so the
last section can tie the knot: what is nested is only ever read behind the place where the construct
began.
-/

namespace MessageLint

variable {source : String} {lo : Nat} {c d m : Cursor}

theorem Node.Placed.inside {n : Node} (h : n.Placed source) : n.span.Inside source :=
  ⟨h.start_le_stop, h.stop_le_size⟩

/-- From `lo` on the parsers do the same, are safe, and must read something. -/
def Parser.Agree {α : Type} (source : String) (lo : Nat) (p q : Parser α) : Prop :=
  ∀ ⦃c⦄, c.At source lo → Parser.Coincide source (c.offset + 1) (p c) (q c)

structure Nested.Agree (source : String) (lo : Nat) (nested nested' : Nested) : Prop where
  inline : nested.inline.Agree source lo nested'.inline
  placeable : nested.placeable.Agree source lo nested'.placeable

theorem Parser.Agree.mono {α : Type} {p q : Parser α} {lo' : Nat} (hle : lo ≤ lo')
    (h : p.Agree source lo q) : p.Agree source lo' q :=
  fun _ hc => h (hc.mono hle)

theorem Nested.Agree.mono {nested nested' : Nested} {lo' : Nat} (hle : lo ≤ lo')
    (h : nested.Agree source lo nested') : nested.Agree source lo' nested' :=
  ⟨h.inline.mono hle, h.placeable.mono hle⟩

namespace Parser

-- ---------------------------------------------------------------------------
-- Names and numbers
-- ---------------------------------------------------------------------------

/-- A name has at least one character; its fault is shown where it should start. -/
theorem identifier_safe (hc : c.In source.toList) : Safe source (c.offset + 1) (identifier c) := by
  have hplace := Cursor.At.refl hc
  rw [identifier, place_bind]
  generalize hpeek : c.peek = first
  split
  · next first =>
    rw [ite_apply]
    split
    · next halpha =>
      have hname : isNameChar first := by simp [isNameChar, Char.isAlphanum, halpha]
      exact hplace.skipWhile_of_peek hpeek hname
    · exact hplace.here
  · exact hplace.here

theorem digits_safe (hc : c.At source lo) : Safe source (lo + 1) (digits c) := by
  rw [digits, takeWhile_bind, ite_apply]
  split
  · exact (hc.skipWhile _).here
  · next hne => exact hc.reads_pos (c.reads_skipWhile _) (by simpa using hne)

/-- There is at least one digit behind the sign. -/
theorem number_safe (hc : c.In source.toList) : Safe source (c.offset + 1) (number c) := by
  have hplace := Cursor.At.refl hc
  have hrest : ∀ {sign : String} {d : Cursor}, d.At source c.offset →
      Safe source (c.offset + 1) ((do
        let whole ← digits
        if (← peek) = some '.' then
          skip 1
          let fraction ← digits
          return ⟨sign ++ whole ++ "." ++ fraction, ← spanFrom c⟩
        else
          return ⟨sign ++ whole, ← spanFrom c⟩ : Parser NumberLiteral) d) := fun hd => by
    refine (digits_safe hd).bind fun whole m _ hm => ?_
    rw [peek_bind, ite_apply, skip_bind]
    split
    · exact (digits_safe (hm.advance 1)).bind fun _ _ _ hd => hd.mono (Nat.le_succ _)
    · exact hm
  rw [number, place_bind, ite_apply]
  split
  · exact hrest (hplace.advance 1)
  · exact hrest hplace

-- ---------------------------------------------------------------------------
-- Quoted text
-- ---------------------------------------------------------------------------

/-- The escape that is being read began at `m`. -/
theorem unicodeEscape_safe (letter : Char) (count : Nat) (hc : c.At source m.offset) :
    Safe source c.offset (unicodeEscape m letter count c) := by
  have hplace := Cursor.At.refl hc.isIn
  rw [unicodeEscape, skip_bind, place_bind, skip_bind, ite_apply]
  split
  · exact (hplace.advance 1).advance _
  · exact ((hc.advance 1).advance _).spanTo

/-- A fault in an escape covers it from its backslash on. -/
theorem escape_safe (hpeek : c.peek = some '\\') (hc : c.In source.toList) :
    Safe source (c.offset + 1) (escape c) := by
  have hplace := Cursor.At.refl hc
  have hnext : (c.advance 1).At source (c.offset + 1) := hplace.next_of_peek hpeek
  rw [escape, place_bind, skip_bind, peek_bind]
  generalize (c.advance 1).peek = letter
  split
  · exact (hplace.advance 1).spanTo
  · exact (unicodeEscape_safe _ _ (hplace.advance 1)).mono hnext.le
  · exact (unicodeEscape_safe _ _ (hplace.advance 1)).mono hnext.le
  · rw [skip_bind, ite_apply]
    split
    · exact hnext.advance 1
    · exact ((hplace.advance 1).advance 1).spanTo

/-- Where the digits are at fault, what was written is reported as it stands in the source. -/
private theorem unicodeEscape_error {letter : Char} {count : Nat} {written : String} {span : Span}
    (hm : m.In source.toList) (hstart : m.Reads ['\\'] c) (hletter : c.peek = some letter)
    (h : unicodeEscape m letter count c = .error ⟨.invalidUnicodeEscapeSequence written, span⟩) :
    span.slice? source.toList = some written.toList := by
  rw [unicodeEscape, skip_bind, place_bind, skip_bind, ite_apply] at h
  have hdigits : ((c.advance 1).rest.take count).takeWhile (fun ch => (hexDigit? ch).isSome) <+:
      (c.advance 1).rest :=
    List.IsPrefix.trans (List.takeWhile_prefix _) <| List.take_prefix _ _
  have hdigits := Cursor.reads_advance_of_prefix hdigits
  have hreads := hstart.trans ((Cursor.reads_next_of_peek hletter).trans hdigits)
  split at h
  · simp at h
  · obtain ⟨rfl, rfl⟩ := by simpa using h
    simpa [Cursor.advance] using hreads.slice? hm

theorem escape_error (hpeek : c.peek = some '\\') (hc : c.In source.toList) {written : String}
    {span : Span} (h : escape c = .error ⟨.invalidUnicodeEscapeSequence written, span⟩) :
    span.slice? source.toList = some written.toList := by
  have hstart : c.Reads ['\\'] (c.advance 1) := Cursor.reads_next_of_peek hpeek
  rw [escape, place_bind, skip_bind, peek_bind] at h
  generalize hletter : (c.advance 1).peek = letter at h
  split at h
  · simp at h
  · exact unicodeEscape_error hc hstart hletter h
  · exact unicodeEscape_error hc hstart hletter h
  · rw [skip_bind, ite_apply] at h
    split at h <;> simp at h

/-- The literal that is being read began at `m`. -/
theorem quotedChar_safe (hc : c.At source m.offset) :
    Safe source (c.offset + 1) (quotedChar m c) := by
  rw [quotedChar, peek_bind]
  generalize hpeek : c.peek = first
  split
  · exact hc.spanTo
  · exact hc.spanTo
  · exact escape_safe hpeek hc.isIn
  · exact (Cursor.At.refl hc.isIn).next_of_peek hpeek

/-- The quote at the start is read, and from there on the cursor only moves forward. -/
theorem stringLiteral_safe (hc : c.In source.toList) :
    Safe source (c.offset + 1) (stringLiteral c) := by
  rw [stringLiteral, place_bind]
  refine (safe_token '"' (.refl hc)).bind fun _ d _ hd => ?_
  refine (gather_safe (fun _ _ hm _ => quotedChar_safe hm) (hd.mono (Nat.le_succ _))).bind
    fun _ m _ hm => ?_
  refine (safe_token '"' hm).bind fun _ m _ hm => ?_
  have := hd.le
  exact hm.mono (by split <;> omega)

/-- Either literal reads at least the character that it is known by. -/
theorem literal_safe (hc : c.In source.toList) : Safe source (c.offset + 1) (literal c) := by
  rw [literal, place_bind, ite_apply, ite_apply]
  split
  · exact (number_safe hc).bind fun _ _ _ hd => hd
  · split
    · exact (stringLiteral_safe hc).bind fun _ _ _ hd => hd
    · exact (Cursor.At.refl hc).here

-- ---------------------------------------------------------------------------
-- Patterns
-- ---------------------------------------------------------------------------

section Patterns

variable {placeable placeable' : Parser Placeable}

theorem blockIndent_safe (hc : c.At source lo) : Safe source lo (blockIndent c) := by
  rw [blockIndent, place_bind, countSpaces_bind]
  exact hc.skipSpaces

/-- Where a pattern goes on its next piece reads something, so the loop over the pieces gets to its end.
-/
theorem piece_coincide (hplaceable : placeable.Agree source lo placeable')
    (hmore : c.continuesPiece) (hc : c.At source lo) :
    Coincide source (c.offset + 1) (piece placeable c) (piece placeable' c) := by
  have hplace := Cursor.At.refl hc.isIn
  rw [piece, piece, place_bind, place_bind]
  generalize hpeek : c.peek = first
  split
  · rw [skipBlankLines_bind, countSpaces_bind]
    exact Safe.coincide (hplace.skipBlankLines_of_peek hpeek).skipSpaces
  · exact (hplaceable hc).bind fun _ _ _ hd => Safe.coincide hd
  · exact Safe.coincide hplace.here
  · next hnewline hopen hclose =>
    rw [takeWhile_bind]
    cases first with
    | none => simp [Cursor.continuesPiece, hpeek] at hmore
    | some ch =>
      have htext : isPatternText ch := by simp_all [isPatternText]
      exact Safe.coincide (hplace.skipWhile_of_peek hpeek htext)

/-- The loop may have no round, but each round that it has moves on. -/
theorem pieces_coincide (hplaceable : placeable.Agree source lo placeable') (block : Bool)
    (hc : c.At source lo) :
    Coincide source c.offset (pieces placeable block c) (pieces placeable' block c) := by
  have hround : ∀ (seen : List Piece) (m : Cursor), m.At source lo → m.continuesPiece →
      Coincide source (m.offset + 1) (piece placeable m) (piece placeable' m) :=
    fun _ _ hm hmore => piece_coincide hplaceable hmore hm
  have hloop : ∀ {seen : List Piece} {m : Cursor}, m.At source c.offset →
      Coincide source c.offset
        (gather (fun _ c => c.continuesPiece) (fun _ => piece placeable) seen m)
        (gather (fun _ c => c.continuesPiece) (fun _ => piece placeable') seen m) := fun hm => by
    refine (gather_coincide hround (hm.mono hc.le)).mono ?_
    have := hm.le
    split <;> omega
  cases block with
  | true => exact (blockIndent_safe (.refl hc.isIn)).bind_coincide fun _ _ _ hm => hloop hm
  | false => exact hloop (.refl hc.isIn)

theorem pattern_coincide (hplaceable : placeable.Agree source lo placeable') (block : Bool)
    (hc : c.At source lo) :
    Coincide source c.offset (pattern placeable block c) (pattern placeable' block c) :=
  (pieces_coincide hplaceable block hc).bind fun _ _ _ hd => Safe.coincide hd

/-- Where a pattern is opened, its first piece must read something. -/
theorem pattern_advances (hplaceable : placeable.Agree source lo placeable') {block : Bool}
    {q : Pattern} (hopens : c.OpensPattern block) (hc : c.At source lo)
    (h : pattern placeable block c = .ok (q, d)) : c.offset < d.offset := by
  obtain ⟨opening, m, pieces, hopening, hpieces, -⟩ := pattern_ok h
  obtain ⟨ch, hpeek, hch⟩ := hopening.peek hopens
  have hmore := Cursor.continuesPiece_of_peek hpeek hch
  obtain ⟨text, hreads⟩ := hopening.reads
  have hm : m.At source c.offset := (Cursor.At.refl hc.isIn).reads hreads
  have hloop : Coincide source (if m.continuesPiece then m.offset + 1 else m.offset)
      (gather (fun _ c => c.continuesPiece) (fun _ => piece placeable) opening m) _ :=
    gather_coincide (fun _ _ hm hmore => piece_coincide hplaceable hmore hm) (hm.mono hc.le)
  have hloop := hloop.safe
  rw [hpieces, if_pos hmore] at hloop
  have hd : m.offset + 1 ≤ d.offset := hloop.le
  have := hm.le
  omega

/-- If there is no value nothing is read: blanks are passed only on the way to one. -/
theorem pattern?_coincide (hplaceable : placeable.Agree source lo placeable')
    (hc : c.At source lo) :
    Coincide source c.offset (pattern? placeable c) (pattern? placeable' c) := by
  have hplace := (Cursor.At.refl hc.isIn).skipSpaces
  simp only [pattern?, place_bind, ite_apply, moveTo_bind]
  split
  · split
    · have hline := hplace.skipBlankLines
      refine (pattern_coincide hplaceable true (hline.mono hc.le)).bind fun _ _ _ hd => ?_
      exact Safe.coincide (hd.mono hline.le)
    · exact Safe.coincide (.refl hc.isIn)
  · refine (pattern_coincide hplaceable false (hplace.mono hc.le)).bind fun _ _ _ hd => ?_
    exact Safe.coincide (hd.mono hplace.le)

theorem requiredPattern_coincide (hplaceable : placeable.Agree source lo placeable')
    (hc : c.At source lo) :
    Coincide source c.offset (requiredPattern placeable c) (requiredPattern placeable' c) := by
  refine (pattern?_coincide hplaceable hc).bind fun p d _ hd => ?_
  cases p with
  | some p => exact Safe.coincide hd
  | none => exact Safe.coincide hd.here

end Patterns

-- ---------------------------------------------------------------------------
-- Arguments
-- ---------------------------------------------------------------------------

variable {nested nested' : Nested}

/-- An argument that cannot have a value is a fault at its own span, so this one must be in the source. -/
theorem namedArgument_safe (taken : List NamedArgument) {e : Inline}
    (he : (Node.inline e).Sound source) (hc : c.At source lo) :
    Safe source lo (namedArgument taken e c) := by
  have hfault {cause} : Safe source lo ((failAt e.span cause : Parser NamedArgument) c) :=
    he.placed.inside
  unfold namedArgument
  split
  · next id span =>
    have hid : (Node.identifier id).Sound source := he.child List.mem_cons_self
    rw [ite_apply]
    split
    · exact hid.placed.inside
    · rw [skip_bind, skipBlank_bind]
      have hvalue := (hc.advance 1).skipBlank
      refine (literal_safe hvalue.isIn).bind fun _ _ _ hd => hd.mono ?_
      have := hvalue.le
      omega
  · exact hfault

/-- An argument reads something, and the comma behind it may be missing. -/
theorem listedArgument_coincide (hnested : nested.Agree source lo nested')
    (hfills : nested.Fills source) (seen : List ListedArgument) (hc : c.At source lo) :
    Coincide source (c.offset + 1) (listedArgument nested seen c)
      (listedArgument nested' seen c) := by
  have hcomma : ∀ {argument : Argument} {d : Cursor}, d.At source (c.offset + 1) →
      Safe source (c.offset + 1) ((do
        skipBlank
        if (← peek) = some ',' then
          skip 1
          skipBlank
          return ⟨argument, true⟩
        else
          return ⟨argument, false⟩ : Parser ListedArgument) d) := fun hd => by
    rw [skipBlank_bind, peek_bind, ite_apply, skip_bind, skipBlank_bind]
    split
    · exact (hd.skipBlank.advance 1).skipBlank
    · exact hd.skipBlank
  refine (hnested.inline hc).bind fun e d hrun hd => ?_
  have he : (Node.inline e).Sound source :=
    (hfills.inline hc.isIn hrun).row.sound List.mem_cons_self
  refine Safe.coincide ?_
  rw [skipBlank_bind, peek_bind, ite_apply]
  split
  · rw [map_bind]
    exact (namedArgument_safe _ he hd.skipBlank).bind fun _ _ _ hm => hcomma hm
  · rw [ite_apply]
    split
    · exact hcomma hd.skipBlank
    · exact he.placed.inside

/-- What is nested is read behind the opening parenthesis. -/
theorem arguments_coincide (hnested : nested.Agree source lo nested') (hfills : nested.Fills source)
    (hc : c.At source lo) :
    Coincide source (c.offset + 1) (arguments nested c) (arguments nested' c) := by
  refine (safe_token '(' (.refl hc.isIn)).bind_coincide fun _ d _ hd => ?_
  rw [skipBlank_bind, skipBlank_bind]
  have hfirst := hd.skipBlank
  have hle := hc.le
  refine (gather_coincide (fun seen m hm _ =>
    listedArgument_coincide hnested hfills seen hm) (hfirst.mono (by omega))).bind fun _ m _ hm => ?_
  refine Safe.coincide ((safe_token ')' hm).bind fun _ m _ hm => hm.mono ?_)
  have := hfirst.le
  split <;> omega

-- ---------------------------------------------------------------------------
-- References
-- ---------------------------------------------------------------------------

/-- Without a period nothing is read. -/
theorem accessor_safe (hc : c.At source lo) : Safe source lo (accessor c) := by
  rw [accessor, peek_bind, ite_apply, skip_bind]
  split
  · have hname := hc.advance 1
    refine (identifier_safe hname.isIn).bind fun _ _ _ hd => hd.mono ?_
    have := hname.le
    omega
  · exact hc

/-- The dollar sign has been seen already, so there is something to read. -/
theorem variableRef_safe (hpeek : c.peek = some '$') (hc : c.In source.toList) :
    Safe source (c.offset + 1) (variableRef c) := by
  rw [variableRef, place_bind, skip_bind]
  have hname : (c.advance 1).At source (c.offset + 1) := (Cursor.At.refl hc).next_of_peek hpeek
  refine (identifier_safe hname.isIn).bind fun _ _ _ hd => hd.mono ?_
  have := hname.le
  omega

/-- What is nested in a call is read behind the dash. -/
theorem termRef_coincide (hnested : nested.Agree source (c.offset + 1) nested')
    (hfills : nested.Fills source) (hpeek : c.peek = some '-') (hc : c.In source.toList) :
    Coincide source (c.offset + 1) (termRef nested c) (termRef nested' c) := by
  rw [termRef, termRef, place_bind, place_bind, skip_bind, skip_bind]
  have hname : (c.advance 1).At source (c.offset + 1) := (Cursor.At.refl hc).next_of_peek hpeek
  refine ((identifier_safe hname.isIn).mono (Nat.le_succ_of_le hname.le)).bind_coincide
    fun _ d _ hd => ?_
  refine (accessor_safe hd).bind_coincide fun _ m _ hm => ?_
  refine (safe_skipBlankBefore '(' hm).bind_coincide fun called m _ hm => ?_
  cases called with
  | true =>
    simp only [↓reduceIte, map_bind]
    refine (arguments_coincide hnested hfills hm).bind fun _ _ _ hd => ?_
    exact Safe.coincide (hd.mono (by have := hm.le; omega))
  | false => exact Safe.coincide hm

/-- What is nested in a call is read behind its name. -/
theorem callOrMessageRef_coincide (hnested : nested.Agree source (c.offset + 1) nested')
    (hfills : nested.Fills source) (hc : c.In source.toList) :
    Coincide source (c.offset + 1) (callOrMessageRef nested c) (callOrMessageRef nested' c) := by
  rw [callOrMessageRef, callOrMessageRef, place_bind, place_bind]
  refine (identifier_safe hc).bind_coincide fun id d hid hd => ?_
  have hname := (identifier_fills hc hid).row.sound List.mem_cons_self
  rw [place_bind, place_bind, ite_apply, ite_apply, ite_apply, ite_apply]
  split
  · split
    · rw [skipBlank_bind, skipBlank_bind]
      have hopen := hd.skipBlank
      refine (arguments_coincide hnested hfills hopen).bind fun _ _ _ hd => ?_
      exact Safe.coincide (hd.mono (by have := hopen.le; omega))
    · exact Safe.coincide hname.placed.inside
  · exact Safe.coincide ((accessor_safe hd).bind fun _ _ _ hd => hd)

-- ---------------------------------------------------------------------------
-- Selections
-- ---------------------------------------------------------------------------

theorem variantKey_safe (hc : c.In source.toList) : Safe source (c.offset + 1) (variantKey c) := by
  rw [variantKey, place_bind, ite_apply]
  split
  · exact (number_safe hc).bind fun _ _ _ hd => hd
  · exact (identifier_safe hc).bind fun _ _ _ hd => hd

/-- The mark may be missing; a second one is a fault at that mark. -/
theorem defaultMark_safe (seen : List Variant) (hc : c.At source lo) :
    Safe source lo (defaultMark seen c) := by
  rw [defaultMark, peek_bind, ite_apply, ite_apply, skip_bind]
  split
  · split
    · exact hc.here
    · exact hc.advance 1
  · exact hc

/-- A variant reads at least its brackets. -/
theorem variant_coincide (hnested : nested.Agree source lo nested') (seen : List Variant)
    (hc : c.At source lo) :
    Coincide source (c.offset + 1) (variant nested seen c) (variant nested' seen c) := by
  rw [variant, variant, place_bind, place_bind]
  refine (defaultMark_safe seen (.refl hc.isIn)).bind_coincide fun _ m _ hm => ?_
  refine (safe_token '[' hm).bind_coincide fun _ m _ hm => ?_
  rw [skipBlank_bind, skipBlank_bind]
  have hkey := hm.skipBlank
  refine ((variantKey_safe hkey.isIn).mono (Nat.le_succ_of_le hkey.le)).bind_coincide
    fun _ m _ hm => ?_
  rw [skipBlank_bind, skipBlank_bind]
  refine (safe_token ']' hm.skipBlank).bind_coincide fun _ m _ hm => ?_
  have := hc.le
  have := hm.le
  refine (requiredPattern_coincide hnested.placeable (hm.mono (by omega))).bind fun _ _ _ hd => ?_
  exact Safe.coincide (hd.mono (by omega))

theorem variantLine_coincide (hnested : nested.Agree source lo nested') (seen : List Variant)
    (hc : c.At source lo) :
    Coincide source (c.offset + 1) (variantLine nested seen c) (variantLine nested' seen c) :=
  (variant_coincide hnested seen hc).bind fun _ _ _ hd =>
    Safe.coincide ((safe_lineEnd hd).bind fun _ _ _ hd => hd.skipBlank)

/-- That there is no variant, or no default, is a fault at the place behind them. -/
theorem variants_coincide (hnested : nested.Agree source lo nested') (hc : c.At source lo) :
    Coincide source c.offset (variants nested c) (variants nested' c) := by
  rw [variants, variants, skipBlank_bind, skipBlank_bind]
  have hfirst := (Cursor.At.refl hc.isIn).skipBlank
  have hle := hc.le
  refine (gather_coincide (fun seen m hm _ => variantLine_coincide hnested seen hm)
    (hfirst.mono hle)).bind fun vs d _ hd => Safe.coincide ?_
  have hd : d.At source c.offset := hd.mono (by have := hfirst.le; split <;> omega)
  rw [ite_apply, ite_apply]
  split
  · exact hd.here
  · split
    · exact hd
    · exact hd.here

/-- The selector was read before the arrow. -/
theorem selection_coincide (hnested : nested.Agree source lo nested') {selector : Inline}
    (start : Cursor) (hselector : (Node.inline selector).Sound source) (hc : c.At source lo) :
    Coincide source c.offset (selection nested start selector c)
      (selection nested' start selector c) := by
  unfold selection
  generalize selector.selectorFault? = fault
  split
  · exact Safe.coincide hselector.placed.inside
  · rw [skip_bind, skip_bind, skipSpaces_bind, skipSpaces_bind]
    have hplace := ((Cursor.At.refl hc.isIn).advance 2).skipSpaces
    refine (safe_lineEnd hplace).bind_coincide fun _ m _ hm => ?_
    refine (variants_coincide hnested (hm.mono hc.le)).bind fun _ _ _ hd => ?_
    exact Safe.coincide (hd.mono hm.le)

-- ---------------------------------------------------------------------------
-- Placeables
-- ---------------------------------------------------------------------------

/-- An expression starts with an inline one, which reads something. -/
theorem expression_coincide (hnested : nested.Agree source lo nested')
    (hfills : nested.Fills source) (hc : c.At source lo) :
    Coincide source (c.offset + 1) (expression nested c) (expression nested' c) := by
  rw [expression, expression, place_bind, place_bind]
  refine (hnested.inline hc).bind fun e d hrun hd => ?_
  have he : (Node.inline e).Sound source :=
    (hfills.inline hc.isIn hrun).row.sound List.mem_cons_self
  have hblank := hd.skipBlank
  rw [skipBlank_bind, skipBlank_bind, place_bind, place_bind, ite_apply, ite_apply]
  split
  · have hle := hc.le
    refine (selection_coincide hnested c he (hblank.mono (by omega))).bind fun _ _ _ hm => ?_
    exact Safe.coincide (hm.mono hblank.le)
  · split
    · exact Safe.coincide he.placed.inside
    · exact Safe.coincide hblank

/-- What is nested in a placeable is read behind its opening brace. -/
theorem placeableWith_coincide (hnested : nested.Agree source (c.offset + 1) nested')
    (hfills : nested.Fills source) (hc : c.In source.toList) :
    Coincide source (c.offset + 1) (placeableWith nested c) (placeableWith nested' c) := by
  rw [placeableWith, placeableWith, place_bind, place_bind]
  refine (safe_token '\x7b' (.refl hc)).bind_coincide fun _ d _ hd => ?_
  rw [skipBlank_bind, skipBlank_bind]
  have hinner := hd.skipBlank
  refine (expression_coincide hnested hfills hinner).bind fun _ m _ hm => ?_
  refine Safe.coincide ((safe_token '\x7d' hm).bind fun _ _ _ hd => hd.mono ?_)
  have := hinner.le
  omega

/-- Whatever the kind of an expression, it reads something. -/
theorem inlineWith_coincide (hnested : nested.Agree source (c.offset + 1) nested')
    (hfills : nested.Fills source) (hc : c.In source.toList) :
    Coincide source (c.offset + 1) (inlineWith nested c) (inlineWith nested' c) := by
  rw [inlineWith, inlineWith, place_bind, place_bind, ite_apply, ite_apply]
  split
  · exact Safe.coincide ((number_safe hc).bind fun _ _ _ hd => hd)
  · generalize hpeek : c.peek = first
    split
    · exact (placeableWith_coincide hnested hfills hc).bind fun _ _ _ hd => Safe.coincide hd
    · exact Safe.coincide ((stringLiteral_safe hc).bind fun _ _ _ hd => hd)
    · exact (variableRef_safe hpeek hc).coincide
    · exact termRef_coincide hnested hfills hpeek hc
    · rw [ite_apply, ite_apply]
      split
      · exact callOrMessageRef_coincide hnested hfills hc
      · exact Safe.coincide (Cursor.At.refl hc).here
    · exact Safe.coincide (Cursor.At.refl hc).here

-- ---------------------------------------------------------------------------
-- Nesting
-- ---------------------------------------------------------------------------

theorem within_fills (size : Nat) : (within size).Fills source :=
  ⟨fun _ _ _ hc h => inline_fills hc (within_inline_ok.1 h).2,
    fun _ _ _ hc h => placeable_fills hc (within_placeable_ok.1 h).2⟩

/-- Behind a place its guard lets everything through. -/
theorem within_of_at (hc : c.In source.toList) (hd : d.At source (c.offset + 1)) :
    (within c.rest.length).inline d = inline d ∧
      (within c.rest.length).placeable d = Parser.placeable d := by
  have hlt := Cursor.At.length_lt hc hd
  simp [within, below, hlt]

/-- Parsers that do what the guarded ones do behind a place agree with them there. -/
private theorem within_agree (hc : c.In source.toList)
    (hsafe : ∀ d : Cursor, d.At source (c.offset + 1) → Safe source (d.offset + 1) (inline d) ∧
      Safe source (d.offset + 1) (Parser.placeable d))
    (hsame : ∀ d : Cursor, d.At source (c.offset + 1) →
      nested.inline d = inline d ∧ nested.placeable d = Parser.placeable d) :
    (within c.rest.length).Agree source (c.offset + 1) nested where
  inline d hd := by
    rw [(within_of_at hc hd).1, (hsame d hd).1]
    exact (hsafe d hd).1.coincide
  placeable d hd := by
    rw [(within_of_at hc hd).2, (hsame d hd).2]
    exact (hsafe d hd).2.coincide

/-- By induction on what is left: what stands behind a place is shorter, so the guard lets it through. -/
private theorem nested_safe (c : Cursor) :
    (c.In source.toList → Safe source (c.offset + 1) (inline c)) ∧
      (c.In source.toList → Safe source (c.offset + 1) (Parser.placeable c)) := by
  have hagree : ∀ c : Cursor, c.In source.toList → (∀ d : Cursor, d.rest.length < c.rest.length →
      (d.In source.toList → Safe source (d.offset + 1) (inline d)) ∧
        (d.In source.toList → Safe source (d.offset + 1) (Parser.placeable d))) →
      (within c.rest.length).Agree source (c.offset + 1) (within c.rest.length) :=
    fun c hc hshorter => within_agree hc
      (fun d hd =>
        have hlt := Cursor.At.length_lt hc hd
        ⟨(hshorter d hlt).1 hd.isIn, (hshorter d hlt).2 hd.isIn⟩)
      fun d hd => within_of_at hc hd
  exact nested_induction
    (P := fun c r => c.In source.toList → Safe source (c.offset + 1) r)
    (Q := fun c r => c.In source.toList → Safe source (c.offset + 1) r)
    (fun c hshorter hc => (inlineWith_coincide (hagree c hc hshorter) (within_fills _) hc).safe)
    (fun c hshorter hc => (placeableWith_coincide (hagree c hc hshorter) (within_fills _) hc).safe) c

theorem inline_safe (hc : c.In source.toList) : Safe source (c.offset + 1) (inline c) :=
  (nested_safe c).1 hc

theorem placeable_safe (hc : c.In source.toList) :
    Safe source (c.offset + 1) (Parser.placeable c) :=
  (nested_safe c).2 hc

theorem inline_agree (source : String) : Agree source 0 inline inline :=
  fun _ hc => (inline_safe hc.isIn).coincide

theorem placeable_agree (source : String) : Agree source 0 Parser.placeable Parser.placeable :=
  fun _ hc => (placeable_safe hc.isIn).coincide

/-- What a construct answers depends on the parsers nested in it only behind the place where it
begins. -/
theorem nested_behind (hc : c.In source.toList)
    (hsame : ∀ d : Cursor, d.In source.toList → c.offset < d.offset →
      nested.inline d = inline d ∧ nested.placeable d = Parser.placeable d) :
    inlineWith nested c = inline c ∧ placeableWith nested c = Parser.placeable c := by
  have hagree := within_agree hc (fun d hd => ⟨inline_safe hd.isIn, placeable_safe hd.isIn⟩)
    fun d hd => hsame d hd.isIn hd.le
  rw [inline_eq, placeable_eq]
  exact ⟨(inlineWith_coincide hagree (within_fills _) hc).eq.symm,
    (placeableWith_coincide hagree (within_fills _) hc).eq.symm⟩

end Parser

-- ---------------------------------------------------------------------------
-- The parsers themselves
-- ---------------------------------------------------------------------------

/-- The parsers for what is nested, without the guard that they run under. -/
def Nested.free : Nested := ⟨Parser.inline, Parser.placeable⟩

theorem Nested.free_fills : Nested.free.Fills source :=
  ⟨Parser.inline_fills, Parser.placeable_fills⟩

theorem Nested.free_agree (source : String) : Nested.free.Agree source 0 Nested.free :=
  ⟨Parser.inline_agree source, Parser.placeable_agree source⟩

end MessageLint
