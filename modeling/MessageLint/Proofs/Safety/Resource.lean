-- SUMMARY: Reading a source always ends, stays inside the source, and moves forward.
import MessageLint.Proofs.Safety.Entry
import MessageLint.Proofs.Spans.Resource

/-!
# Safety of reading

What the rules add up to, for every source. `Parser.Called` lists the parsers of the grammar with the
places where they may be run, `Parser.Loop` its loops, and `Parser.Advancing` the parsers that must read
something. `Resource.parse_safe` says that all of them do what they should, at every place of the
source, and that none of the guards that make the definitions total is ever used.
-/

namespace MessageLint

variable {source : String} {lo : Nat} {c d : Cursor}

/-- The stretch that a piece of a pattern was read from. -/
def Piece.span : Piece → Span
  | .indent _ _ span => span
  | .text t => t.span
  | .placeable p => p.span

/-- On the way from `c` to `d` text of the source was read: the stretch between them can be cut out of
it, and `d` stands on a boundary of characters. -/
structure Cursor.Passes (source : String) (c d : Cursor) : Prop where
  le : c.offset ≤ d.offset
  le_size : d.offset ≤ source.utf8ByteSize
  isValid : String.Pos.Raw.IsValid source ⟨d.offset⟩
  reads : ∃ text, c.Reads text d ∧ (c.spanTo d).slice? source.toList = some text

namespace Parser

-- ---------------------------------------------------------------------------
-- Every parser of the grammar
-- ---------------------------------------------------------------------------

/-- Where a run that began at `c` comes out: behind text of the source, with proper spans in its answer,
or at a fault inside the source. -/
def Lands {α : Type} (source : String) (c : Cursor) (spans : α → List Span) :
    Except SyntaxError (α × Cursor) → Prop
  | .ok (a, d) => c.Passes source d ∧ ∀ s ∈ spans a, s.Inside source
  | .error e => e.span.Inside source

section Lands

variable {α : Type} {p : Parser α}

theorem Safe.lands {spans : α → List Span} (hc : c.In source.toList) (hle : c.offset ≤ lo)
    (h : Safe source lo (p c))
    (hspans : ∀ a d, p c = .ok (a, d) → d.At source c.offset → ∀ s ∈ spans a, s.Inside source) :
    Lands source c spans (p c) := by
  cases hrun : p c with
  | error e =>
    rw [hrun] at h
    exact h
  | ok r =>
    rw [hrun] at h
    have hd : r.2.At source c.offset := Cursor.At.mono hle h
    obtain ⟨text, hreads⟩ := hc.reads hd.isIn hd.le
    exact ⟨⟨hd.le, hd.le_size, hd.isIn.isValid, text, hreads, hreads.slice? hc⟩,
      hspans r.1 r.2 hrun hd⟩

theorem Safe.lands_blank (hc : c.In source.toList) (hle : c.offset ≤ lo) (h : Safe source lo (p c)) :
    Lands source c (fun _ => []) (p c) :=
  h.lands hc hle fun _ _ _ _ _ hs => absurd hs List.not_mem_nil

/-- The answer is a node. -/
theorem Safe.lands_node {node : α → Node} (hc : c.In source.toList) (hle : c.offset ≤ lo)
    (h : Safe source lo (p c)) (hnode : ∀ a d, p c = .ok (a, d) → Filled source c d [node a]) :
    Lands source c (fun a => [(node a).span]) (p c) :=
  h.lands hc hle fun a d hrun _ s hs => by
    obtain rfl := List.mem_singleton.1 hs
    exact ((hnode a d hrun).row.sound List.mem_cons_self).placed.inside

end Lands

/-- The parsers of the grammar that may be run at `c`, each with the spans that it makes. -/
inductive Called (source : String) (c : Cursor) :
    {α : Type} → Parser α → (α → List Span) → Prop
  | skip (n : Nat) : Called source c (skip n) fun _ => []
  | skipSpaces : Called source c skipSpaces fun _ => []
  | skipBlank : Called source c skipBlank fun _ => []
  | skipBlankLines : Called source c skipBlankLines fun _ => []
  | skipBlankBefore (t : Char) : Called source c (skipBlankBefore t) fun _ => []
  | token (t : Char) : Called source c (token t) fun _ => []
  | lineEnd : Called source c lineEnd fun _ => []
  | takeWhile (q : Char → Bool) : Called source c (takeWhile q) fun _ => []
  | identifier : Called source c identifier fun id => [id.span]
  | digits : Called source c digits fun _ => []
  | number : Called source c number fun n => [n.span]
  | unicodeEscape {start : Cursor} (letter : Char) (count : Nat) :
      start.offset ≤ c.offset → Called source c (unicodeEscape start letter count) fun _ => []
  | escape : c.peek = some '\\' → Called source c escape fun _ => []
  | quotedChar {start : Cursor} :
      start.offset ≤ c.offset → Called source c (quotedChar start) fun _ => []
  | stringLiteral : Called source c stringLiteral fun s => [s.span]
  | literal : Called source c literal fun l => [(Node.ofLiteral l).span]
  | blockIndent : Called source c blockIndent fun p => [p.span]
  | piece : c.continuesPiece → Called source c (piece placeable) fun p => [p.span]
  | pieces (block : Bool) : Called source c (pieces placeable block) fun _ => []
  | pattern (block : Bool) : Called source c (pattern placeable block) fun p => [p.span]
  | pattern? : Called source c (pattern? placeable) fun _ => []
  | requiredPattern : Called source c (requiredPattern placeable) fun p => [p.span]
  | namedArgument (taken : List NamedArgument) {e : Inline} :
      (Node.inline e).Sound source → Called source c (namedArgument taken e) fun _ => []
  | listedArgument (seen : List ListedArgument) :
      Called source c (listedArgument .free seen) fun _ => []
  | arguments : Called source c (arguments .free) fun _ => []
  | accessor : Called source c accessor fun _ => []
  | variableRef : c.peek = some '$' → Called source c variableRef fun e => [e.span]
  | termRef : c.peek = some '-' → Called source c (termRef .free) fun e => [e.span]
  | callOrMessageRef : Called source c (callOrMessageRef .free) fun e => [e.span]
  | variantKey : Called source c variantKey fun key => [(Node.ofKey key).span]
  | defaultMark (seen : List Variant) : Called source c (defaultMark seen) fun _ => []
  | variant (seen : List Variant) : Called source c (variant .free seen) fun v => [v.span]
  | variantLine (seen : List Variant) : Called source c (variantLine .free seen) fun _ => []
  | variants : Called source c (variants .free) fun _ => []
  | selection {start : Cursor} {selector : Inline} :
      start.offset ≤ c.offset → (Node.inline selector).Sound source →
        Called source c (selection .free start selector) fun s => [s.span]
  | expression : Called source c (expression .free) fun e => [(Node.ofExpression e).span]
  | placeable : Called source c placeable fun p => [p.span]
  | inline : Called source c inline fun e => [e.span]
  | commentLine (level : CommentLevel) : Called source c (commentLine level) fun _ => []
  | nextCommentLine {level : CommentLevel} :
      c.continuesComment level → Called source c (nextCommentLine level) fun _ => []
  | comment : c.peek = some '#' → Called source c comment fun e => [e.span]
  | equalsSign : Called source c equalsSign fun _ => []
  | attributeLine : Called source c attributeLine fun a => [a.span]
  | attributes : Called source c attributes fun _ => []
  | message : Called source c message fun e => [e.span]
  | term : Called source c term fun e => [e.span]
  | entry : Called source c entry fun e => [e.span]
  | block : Called source c block fun b => [b.entry.span]
  | blocks : Called source c blocks fun _ => []

variable {α : Type} {p : Parser α} {spans : α → List Span}

theorem blockIndent_span {q : Piece} (hd : d.At source c.offset) (h : blockIndent c = .ok (q, d)) :
    q.span.Inside source := by
  rw [blockIndent, place_bind, countSpaces_bind] at h
  obtain ⟨rfl, rfl⟩ := by simpa using h
  exact hd.spanTo

theorem piece_span {q : Piece} {placeable : Parser Placeable}
    (hplaceable : placeable.Fills source fun p => [.placeable p])
    (hc : c.In source.toList) (hd : d.At source c.offset) (h : piece placeable c = .ok (q, d)) :
    q.span.Inside source := by
  obtain ⟨-, -, rfl⟩ | ⟨p, -, hp, rfl⟩ | ⟨-, -, -, -, rfl⟩ := piece_ok h
  · exact hd.spanTo
  · exact ((hplaceable hc hp).row.sound List.mem_cons_self).placed.inside
  · exact hd.spanTo

/-- Every parser of the grammar lands. -/
theorem Called.lands (h : Called source c p spans) (hc : c.In source.toList) :
    Lands source c spans (p c) := by
  have hplace := Cursor.At.refl hc
  have hstart : c.At source 0 := hplace.mono (Nat.zero_le _)
  have hsame := Nat.le_refl c.offset
  have hahead := Nat.le_succ c.offset
  have hagree := Nested.free_agree source
  have hbehind := hagree.mono (Nat.zero_le (c.offset + 1))
  have hfills : Nested.free.Fills source := Nested.free_fills
  cases h with
  | skip n => exact Safe.lands_blank hc hsame (hplace.advance n)
  | skipSpaces => exact Safe.lands_blank hc hsame hplace.skipSpaces
  | skipBlank => exact Safe.lands_blank hc hsame hplace.skipBlank
  | skipBlankLines => exact Safe.lands_blank hc hsame hplace.skipBlankLines
  | skipBlankBefore t => exact (safe_skipBlankBefore t hplace).lands_blank hc hsame
  | token t => exact (safe_token t hplace).lands_blank hc hahead
  | lineEnd => exact (safe_lineEnd hplace).lands_blank hc hsame
  | takeWhile q => exact Safe.lands_blank hc hsame (hplace.skipWhile q)
  | identifier => exact (identifier_safe hc).lands_node hc hahead fun _ _ => identifier_fills hc
  | digits => exact (digits_safe hplace).lands_blank hc hahead
  | number => exact (number_safe hc).lands_node hc hahead fun _ _ => number_fills hc
  | unicodeEscape letter count hle =>
    exact (unicodeEscape_safe letter count ⟨hc, hle⟩).lands_blank hc hsame
  | escape hpeek => exact (escape_safe hpeek hc).lands_blank hc hahead
  | quotedChar hle => exact (quotedChar_safe ⟨hc, hle⟩).lands_blank hc hahead
  | stringLiteral =>
    exact (stringLiteral_safe hc).lands_node hc hahead fun _ _ => stringLiteral_fills hc
  | literal => exact (literal_safe hc).lands_node hc hahead fun _ _ => literal_fills hc
  | blockIndent =>
    refine (blockIndent_safe hplace).lands hc hsame fun q d hrun hd => ?_
    exact List.forall_mem_singleton.2 (blockIndent_span hd hrun)
  | piece hmore =>
    refine (piece_coincide hagree.placeable hmore hstart).safe.lands hc hahead fun q d hrun hd => ?_
    exact List.forall_mem_singleton.2 (piece_span hfills.placeable hc hd hrun)
  | pieces block =>
    exact (pieces_coincide hagree.placeable block hstart).safe.lands_blank hc hsame
  | pattern block =>
    exact (pattern_coincide hagree.placeable block hstart).safe.lands_node hc hsame fun _ _ =>
      pattern_fills hfills.placeable block hc
  | pattern? => exact (pattern?_coincide hagree.placeable hstart).safe.lands_blank hc hsame
  | requiredPattern =>
    exact (requiredPattern_coincide hagree.placeable hstart).safe.lands_node hc hsame fun _ _ =>
      requiredPattern_fills hfills.placeable hc
  | namedArgument taken he => exact (namedArgument_safe taken he hplace).lands_blank hc hsame
  | listedArgument seen =>
    exact (listedArgument_coincide hagree hfills seen hstart).safe.lands_blank hc hahead
  | arguments => exact (arguments_coincide hagree hfills hstart).safe.lands_blank hc hahead
  | accessor => exact (accessor_safe hplace).lands_blank hc hsame
  | variableRef hpeek =>
    exact (variableRef_safe hpeek hc).lands_node hc hahead fun _ _ => variableRef_fills hc
  | termRef hpeek =>
    exact (termRef_coincide hbehind hfills hpeek hc).safe.lands_node hc hahead fun _ _ =>
      termRef_fills hfills hc
  | callOrMessageRef =>
    exact (callOrMessageRef_coincide hbehind hfills hc).safe.lands_node hc hahead fun _ _ =>
      callOrMessageRef_fills hfills hc
  | variantKey => exact (variantKey_safe hc).lands_node hc hahead fun _ _ => variantKey_fills hc
  | defaultMark seen => exact (defaultMark_safe seen hplace).lands_blank hc hsame
  | variant seen =>
    exact (variant_coincide hagree seen hstart).safe.lands_node hc hahead fun _ _ =>
      variant_fills hfills seen hc
  | variantLine seen => exact (variantLine_coincide hagree seen hstart).safe.lands_blank hc hahead
  | variants => exact (variants_coincide hagree hstart).safe.lands_blank hc hsame
  | selection hle hselector =>
    refine (selection_coincide hagree _ hselector hstart).safe.lands hc hsame fun s d hrun hd => ?_
    obtain ⟨_, -, -, -, rfl⟩ := selection_ok hrun
    exact List.forall_mem_singleton.2 (hd.mono hle).spanTo
  | expression =>
    exact (expression_coincide hagree hfills hstart).safe.lands_node hc hahead fun _ _ =>
      expression_fills hfills hc
  | placeable => exact (placeable_safe hc).lands_node hc hahead fun _ _ => placeable_fills hc
  | inline => exact (inline_safe hc).lands_node hc hahead fun _ _ => inline_fills hc
  | commentLine level => exact (commentLine_safe (hplace.advance _)).lands_blank hc hsame
  | nextCommentLine hmore => exact (nextCommentLine_safe hmore hc).lands_blank hc hahead
  | comment hpeek =>
    exact (comment_safe hpeek hc).lands_node hc hahead fun _ _ => comment_fills hpeek hc
  | equalsSign => exact (equalsSign_safe hplace).lands_blank hc hsame
  | attributeLine =>
    exact (attributeLine_safe hc).lands_node hc hahead fun _ _ => attributeLine_fills hc
  | attributes => exact (attributes_safe hc).lands_blank hc hsame
  | message => exact (message_safe hc).lands_node hc hahead fun _ _ => message_fills hc
  | term => exact (term_safe hc).lands_node hc hahead fun _ _ => term_fills hc
  | entry => exact (entry_safe hc).lands_node hc hahead fun _ _ => entry_fills hc
  | block => exact (block_safe hc).lands_node hc hahead fun _ _ => block_fills hc
  | blocks => exact (blocks_safe hc).lands_blank hc hsame

-- ---------------------------------------------------------------------------
-- Loops
-- ---------------------------------------------------------------------------

/-- The loops of the grammar that may be run from `c` on: when they go on, and what a round does. -/
inductive Loop (c : Cursor) :
    {α : Type} → (List α → Cursor → Bool) → (List α → Parser α) → Prop
  | blocks : Loop c (fun _ c => !c.atEnd) fun _ => block
  | attributes : Loop c (fun _ c => c.skipBlank.peek = some '.') fun _ => attributeLine
  | pieces : Loop c (fun _ c => c.continuesPiece) fun _ => piece placeable
  | variants : Loop c (fun _ c => c.startsVariant) (variantLine .free)
  | arguments : Loop c moreArguments (listedArgument .free)
  | quoted {start : Cursor} :
      start.offset ≤ c.offset → Loop c (fun _ c => c.peek ≠ some '"') fun _ => quotedChar start
  | comment (level : CommentLevel) :
      Loop c (fun _ c => c.continuesComment level) fun _ => nextCommentLine level

variable {more : List α → Cursor → Bool} {step : List α → Parser α}

/-- A round moves forward wherever the loop can get to. -/
theorem Loop.round (h : Loop c more step) {seen : List α} (hd : d.At source c.offset)
    (hmore : more seen d) : Safe source (d.offset + 1) (step seen d) := by
  have hplace : d.At source 0 := hd.mono (Nat.zero_le _)
  have hagree := Nested.free_agree source
  cases h with
  | blocks => exact block_safe hd.isIn
  | attributes => exact attributeLine_safe hd.isIn
  | pieces => exact (piece_coincide hagree.placeable hmore hplace).safe
  | variants => exact (variantLine_coincide hagree seen hplace).safe
  | arguments => exact (listedArgument_coincide hagree Nested.free_fills seen hplace).safe
  | quoted hle => exact quotedChar_safe (hd.mono hle)
  | comment level => exact nextCommentLine_safe hmore hd.isIn

-- ---------------------------------------------------------------------------
-- Parsers that must read something
-- ---------------------------------------------------------------------------

/-- The parsers whose answer at `c` stands for at least one character. -/
inductive Advancing (c : Cursor) : {α : Type} → Parser α → Prop
  | entry : Advancing c entry
  | pattern {block : Bool} : c.OpensPattern block → Advancing c (pattern placeable block)
  | placeable : Advancing c placeable
  | expression : Advancing c (expression .free)
  | inline : Advancing c inline
  | variant (seen : List Variant) : Advancing c (variant .free seen)
  | arguments : Advancing c (arguments .free)

theorem Safe.lt {a : α} (h : Safe source (c.offset + 1) (p c)) (hrun : p c = .ok (a, d)) :
    c.offset < d.offset := by
  rw [hrun] at h
  exact h.le

theorem Advancing.lt (h : Advancing c p) (hc : c.In source.toList) {a : α}
    (hrun : p c = .ok (a, d)) : c.offset < d.offset := by
  have hplace : c.At source 0 := (Cursor.At.refl hc).mono (Nat.zero_le _)
  have hagree := Nested.free_agree source
  have hfills : Nested.free.Fills source := Nested.free_fills
  cases h with
  | entry => exact (entry_safe hc).lt hrun
  | pattern hopens => exact pattern_advances hagree.placeable hopens hplace hrun
  | placeable => exact (placeable_safe hc).lt hrun
  | expression => exact (expression_coincide hagree hfills hplace).safe.lt hrun
  | inline => exact (inline_safe hc).lt hrun
  | variant seen => exact (variant_coincide hagree seen hplace).safe.lt hrun
  | arguments => exact (arguments_coincide hagree hfills hplace).safe.lt hrun

end Parser

-- ---------------------------------------------------------------------------
-- Resources
-- ---------------------------------------------------------------------------

/-- What is owed to a source, whatever stands in it. -/
structure Resource.ParsesSafely (source : String) : Prop where
  /-- Reading ends, with a resource whose nodes have proper spans or with a fault in the source. -/
  ends :
    match Resource.parse source with
    | .ok r => ∀ n, (Node.resource r).Holds n → n.span.Inside source
    | .error e => e.span.Inside source
  /-- Every parser stays in the source, on boundaries of characters, and never goes back. -/
  lands {α : Type} {p : Parser α} {spans : α → List Span} {c : Cursor} :
    c.In source.toList → Parser.Called source c p spans → Parser.Lands source c spans (p c)
  /-- The text of an escape that is at fault is cut out of the source. -/
  quotes {c : Cursor} {written : String} {span : Span} :
    c.In source.toList → c.peek = some '\\' →
      Parser.escape c = .error ⟨.invalidUnicodeEscapeSequence written, span⟩ →
        span.slice? source.toList = some written.toList
  /-- Every round of a loop moves forward, and a loop ends only where it should. -/
  loops {α : Type} {more : List α → Cursor → Bool} {step : List α → Parser α} {c : Cursor}
      (seen : List α) :
    c.In source.toList → Parser.Loop c more step →
      Parser.Iterates more step seen c (Parser.gather more step seen c)
  /-- What is nested in a construct is read behind the place where it begins. Parsers that do the
  same there change nothing, `Nested.free` among them, so the guard of the descent never refuses. -/
  nests {c : Cursor} {nested : Nested} :
    c.In source.toList →
      (∀ d : Cursor, d.In source.toList → c.offset < d.offset →
        nested.inline d = Parser.inline d ∧ nested.placeable d = Parser.placeable d) →
      Parser.inlineWith nested c = Parser.inline c ∧
        Parser.placeableWith nested c = Parser.placeable c
  /-- Constructs are at least one character long. -/
  advances {α : Type} {p : Parser α} {a : α} {c d : Cursor} :
    c.In source.toList → Parser.Advancing c p → p c = .ok (a, d) → c.offset < d.offset
  /-- A pattern is read only where one is opened. -/
  opens {q : Pattern} {c d : Cursor} :
    Parser.pattern? Parser.placeable c = .ok (some q, d) →
      ∃ block m text, c.Reads text m ∧ m.OpensPattern block ∧
        Parser.pattern Parser.placeable block m = .ok (q, d)

/-- Reading ends and goes forward, in every source. -/
theorem Resource.parse_safe (source : String) : Resource.ParsesSafely source where
  ends := by
    have hrun := Parser.blocks_safe (Cursor.in_ofString source)
    cases hparse : Resource.parse source with
    | ok r => exact fun n hn => ((parse_sound hparse).placed_of_holds hn).inside
    | error e =>
      cases hblocks : Parser.blocks (.ofString source) with
      | ok r => simp [Resource.parse, hblocks] at hparse
      | error e' =>
        obtain rfl : e' = e := by simpa [Resource.parse, hblocks] using hparse
        rw [hblocks] at hrun
        exact hrun
  lands hc h := h.lands hc
  quotes hc hpeek h := Parser.escape_error hpeek hc h
  loops seen hc h := Parser.gather_iterates (fun _ _ hd hmore => h.round hd hmore) (.refl hc)
  nests hc hsame := Parser.nested_behind hc hsame
  advances hc h hrun := h.lt hc hrun
  opens h := Parser.pattern?_some h

end MessageLint
