-- SUMMARY: Rows of nodes read by the parsers for names, patterns and expressions.
import MessageLint.Proofs.Runs
import MessageLint.Proofs.Spans.Basic

/-!
# Spans below entries

For each parser below the level of entries: the nodes of its answer fill the stretch that it has
read. Constructs are proved for any two parsers for what is nested in them that do so (`Nested.Fills`);
`inline_fills` and `placeable_fills` tie the knot by induction on what is left of the source.
-/

namespace MessageLint

/-- Every run of `p` in the source fills what it reads with the nodes of its answer. -/
def Parser.Fills (source : String) (nodes : α → List Node) (p : Parser α) : Prop :=
  ∀ ⦃c a d⦄, c.In source.toList → p c = .ok (a, d) → Filled source c d (nodes a)

/-- Both parsers for what is nested in a construct fill what they read. -/
structure Nested.Fills (source : String) (nested : Nested) : Prop where
  inline : nested.inline.Fills source fun e => [.inline e]
  placeable : nested.placeable.Fills source fun p => [.placeable p]

namespace Parser

variable {α : Type} {source : String} {c d m : Cursor}

-- ---------------------------------------------------------------------------
-- Loops
-- ---------------------------------------------------------------------------

theorem gather_fills {f : α → List Node} {more : List α → Cursor → Bool}
    {step : List α → Parser α} {seen as : List α}
    (hstep : ∀ seen c a d, c.In source.toList → more seen c → step seen c = .ok (a, d) →
      Filled source c d (f a))
    (hseen : Filled source m c (seen.reverse.flatMap f))
    (h : gather more step seen c = .ok (as, d)) : Filled source m d (as.flatMap f) := by
  have := gather_induction (motive := fun seen d => Filled source m d (seen.reverse.flatMap f))
    (fun seen c a d hrow hmore hrun => by
      simpa using hrow.append (hstep seen c a d hrow.stop hmore hrun)) hseen h
  simpa using this

-- ---------------------------------------------------------------------------
-- Names, numbers and quoted text
-- ---------------------------------------------------------------------------

theorem identifier_fills : identifier.Fills source fun id => [.identifier id] := by
  intro c id d hc h
  obtain ⟨-, rfl, rfl⟩ := identifier_ok h
  refine (Filled.blank hc (c.reads_skipWhile isNameChar)).node rfl fun text ht => ?_
  rw [ht.unique (c.reads_skipWhile isNameChar)]
  exact String.toList_ofList.symm

private theorem digits_reads {run : String} (h : digits c = .ok (run, d)) :
    c.Reads run.toList d := by
  obtain ⟨rfl, -, rfl⟩ := digits_ok h
  rw [String.toList_ofList]
  exact c.reads_skipWhile Char.isDigit

private theorem sign_reads {sign : String} (h : SignAt c sign d) : c.Reads sign.toList d := by
  obtain ⟨rfl, hpeek, rfl⟩ | ⟨rfl, -, rfl⟩ := h
  · exact Cursor.reads_next_of_peek hpeek
  · exact .refl _

theorem number_reads {n : NumberLiteral} (h : number c = .ok (n, d)) :
    c.Reads n.value.toList d ∧ n.span = c.spanTo d := by
  obtain ⟨sign, m₁, whole, m₂, hsign, hwhole, hrest⟩ := number_ok h
  have hint := (sign_reads hsign).trans (digits_reads hwhole)
  obtain ⟨-, rfl, rfl⟩ | ⟨fraction, hdot, hfraction, rfl⟩ := hrest
  · exact ⟨by simpa using hint, rfl⟩
  · have hfrac := (Cursor.reads_next_of_peek hdot).trans (digits_reads hfraction)
    exact ⟨by simpa using hint.trans hfrac, rfl⟩

theorem number_fills : number.Fills source fun n => [.number n] := by
  intro c n d hc h
  obtain ⟨hreads, hspan⟩ := number_reads h
  exact (Filled.blank hc hreads).node hspan fun text ht => ht.unique hreads

private theorem escape_reads {ch : Char} (h : escape c = .ok (ch, d)) : ∃ text, c.Reads text d := by
  obtain ⟨first, hfirst⟩ := c.reads_next
  have hunicode : ∀ {letter count}, unicodeEscape c letter count c.next = .ok (ch, d) →
      ∃ text, c.Reads text d := fun h => by
    obtain ⟨-, -, -, -, rfl⟩ := unicodeEscape_ok h
    obtain ⟨letter, hletter⟩ := c.next.reads_next
    obtain ⟨digits, hdigits⟩ := c.next.next.reads_advance _
    exact ⟨_, hfirst.trans (hletter.trans hdigits)⟩
  obtain ⟨-, h⟩ | ⟨-, h⟩ | ⟨-, hpeek, rfl⟩ := escape_ok h
  · exact hunicode h
  · exact hunicode h
  · exact ⟨_, hfirst.trans (Cursor.reads_next_of_peek hpeek)⟩

private theorem quotedChar_reads {ch : Char} (h : quotedChar m c = .ok (ch, d)) :
    ∃ text, c.Reads text d := by
  obtain ⟨-, h⟩ | ⟨-, -, hpeek, rfl⟩ := quotedChar_ok h
  · exact escape_reads h
  · exact ⟨_, Cursor.reads_next_of_peek hpeek⟩

theorem stringLiteral_fills : stringLiteral.Fills source fun s => [.string s] := by
  intro c s d hc h
  obtain ⟨value, m, hopen, hvalue, hclose, rfl, rfl⟩ := stringLiteral_ok h
  have hfirst := Cursor.reads_next_of_peek hopen
  have hinner : Filled source c.next m (value.flatMap fun _ => []) :=
    gather_fills (fun _ _ _ _ hc _ h => let ⟨_, hreads⟩ := quotedChar_reads h; .blank hc hreads)
      (.blank (hfirst.in hc) (.refl _)) hvalue
  rw [List.flatMap_eq_nil_iff.2 fun _ _ => rfl] at hinner
  have hlast := Cursor.reads_next_of_peek hclose
  refine (hinner.after_blank hc hfirst |>.before_blank hlast).node rfl fun text ht => ?_
  obtain ⟨inner, hreads⟩ := hinner.reads
  exact ⟨inner, ht.unique (hfirst.trans (hreads.trans hlast))⟩

theorem literal_fills : literal.Fills source fun l => [Node.ofLiteral l] := by
  intro c l d hc h
  obtain ⟨n, -, hn, rfl⟩ | ⟨s, hs, rfl⟩ := literal_ok h
  · exact number_fills hc hn
  · exact stringLiteral_fills hc hs

-- ---------------------------------------------------------------------------
-- Patterns
-- ---------------------------------------------------------------------------

section Elements

variable {lo hi : Nat} {e : Element} {es : List Element}

/-- A text element may stand for any characters. -/
private theorem sound_text {t : TextElement} (hle : t.span.start ≤ t.span.stop)
    (hstart : String.Pos.Raw.IsValid source ⟨t.span.start⟩)
    (hstop : String.Pos.Raw.IsValid source ⟨t.span.stop⟩) : (Node.text t).Sound source :=
  Node.sound_of_row hstart hstop hle fun _ => trivial

private theorem row_joinOnto (h : Row source lo hi ((e :: es).map Node.ofElement)) :
    Row source lo hi ((e.joinOnto es).map Node.ofElement) := by
  unfold Element.joinOnto
  split
  · next a b es =>
    obtain ⟨hlo, ha, hab, hb, hes⟩ := h
    have hlea := ha.placed.start_le_stop
    have hleb := hb.placed.start_le_stop
    simp only [Node.ofElement, Node.span] at hlo hab hlea hleb
    have hspan : a.span.extend b.span = ⟨a.span.start, b.span.stop⟩ := by
      simp only [Span.extend, Span.mk.injEq]
      omega
    have hsound : (Node.text ⟨a.value ++ b.value, ⟨a.span.start, b.span.stop⟩⟩).Sound source :=
      sound_text (by show a.span.start ≤ b.span.stop; omega) ha.placed.start_isValid
        hb.placed.stop_isValid
    rw [hspan]
    exact ⟨hlo, hsound, hes⟩
  · exact h

private theorem row_join (h : Row source lo hi (es.map Node.ofElement)) :
    Row source lo hi ((Element.join es).map Node.ofElement) := by
  induction es generalizing lo with
  | nil => exact h
  | cons e es ih => exact row_joinOnto ⟨h.1, h.2.1, ih h.2.2⟩

private theorem row_trimLast (h : Row source lo hi (es.map Node.ofElement)) :
    Row source lo hi ((Element.trimLast es).map Node.ofElement) := by
  fun_induction Element.trimLast es generalizing lo with
  | case1 => exact h
  | case2 t => exact h.le
  | case3 t =>
    have ht := h.2.1.placed
    exact ⟨h.1, sound_text ht.start_le_stop ht.start_isValid ht.stop_isValid, h.2.2⟩
  | case4 e es _ ih => exact ⟨h.1, h.2.1, ih h.2.2⟩

end Elements

variable {placeable : Parser Placeable}

/-- The piece fills what was read, whatever indentation is removed from it. -/
theorem piece_fills (common : Nat) (hplaceable : placeable.Fills source fun p => [.placeable p]) :
    (piece placeable).Fills source fun p => (p.dedent common).toList.map Node.ofElement := by
  intro c p d hc h
  have htext : ∀ {text} (t : TextElement), c.Reads text d → t.span = c.spanTo d →
      Filled source c d [Node.ofElement (.text t)] :=
    fun t hreads hspan => (Filled.blank hc hreads).node hspan fun _ _ => trivial
  obtain ⟨-, rfl, rfl⟩ | ⟨q, -, hq, rfl⟩ | ⟨-, -, -, rfl, rfl⟩ := piece_ok h
  · obtain ⟨blank, hblank⟩ := c.skipBlankLines_ends
    have hreads := hblank.reads.trans (c.skipBlankLines.2.reads_skipSpaces)
    simp only [Piece.dedent]
    split
    · exact .blank hc hreads
    · exact htext _ hreads rfl
  · exact hplaceable hc hq
  · exact htext _ (c.reads_skipWhile isPatternText) rfl

theorem pattern_fills (hplaceable : placeable.Fills source fun p => [.placeable p]) (block : Bool) :
    (pattern placeable block).Fills source fun p => [.pattern p] := by
  intro c p d hc h
  obtain ⟨opening, m, pieces, hopening, hpieces, rfl⟩ := pattern_ok h
  have hstart : Filled source c m
      (opening.reverse.flatMap fun p =>
        (p.dedent (Piece.commonIndent pieces)).toList.map Node.ofElement) := by
    cases block with
    | true =>
      obtain ⟨rfl, rfl⟩ := hopening
      have hreads := c.reads_skipSpaces
      simp only [List.reverse_singleton, List.flatMap_singleton, Piece.dedent]
      split
      · exact .blank hc hreads
      · exact (Filled.blank hc hreads).node rfl fun _ _ => trivial
    | false =>
      obtain ⟨rfl, rfl⟩ := hopening
      exact .blank hc (.refl _)
  have hrow := gather_fills
    (fun _ _ _ _ hc _ => piece_fills (Piece.commonIndent pieces) hplaceable hc) hstart hpieces
  have helements : pieces.flatMap (fun p =>
      (p.dedent (Piece.commonIndent pieces)).toList.map Node.ofElement) =
        (pieces.filterMap (Piece.dedent (Piece.commonIndent pieces))).map Node.ofElement := by
    rw [List.filterMap_eq_flatMap_toList, List.map_flatMap]
  rw [helements] at hrow
  exact Filled.node ⟨hc, hrow.reads, row_trimLast (row_join hrow.row)⟩ rfl fun _ _ => trivial

theorem pattern?_fills (hplaceable : placeable.Fills source fun p => [.placeable p]) :
    (pattern? placeable).Fills source fun p => p.toList.map .pattern := by
  intro c p d hc h
  have hspaces := c.reads_skipSpaces
  obtain ⟨rfl, rfl, -⟩ | ⟨q, -, -, hq, rfl⟩ | ⟨q, -, -, hq, rfl⟩ := pattern?_ok h
  · exact .blank hc (.refl _)
  · obtain ⟨lines, hlines⟩ := c.skipSpaces.skipBlankLines_ends
    have hreads := hspaces.trans hlines.reads
    exact (pattern_fills hplaceable true (hreads.in hc) hq).after_blank hc hreads
  · exact (pattern_fills hplaceable false (hspaces.in hc) hq).after_blank hc hspaces

theorem requiredPattern_fills (hplaceable : placeable.Fills source fun p => [.placeable p]) :
    (requiredPattern placeable).Fills source fun p => [.pattern p] :=
  fun _ _ _ hc h => pattern?_fills hplaceable hc (requiredPattern_ok h)

-- ---------------------------------------------------------------------------
-- Arguments
-- ---------------------------------------------------------------------------

variable {nested : Nested}

theorem namedArgument_fills {taken : List NamedArgument} {e : Inline} {a : NamedArgument}
    (he : Filled source m c [.inline e]) (h : namedArgument taken e c = .ok (a, d)) :
    Filled source m d (Node.ofNamed a) := by
  obtain ⟨id, span, value, rfl, -, hvalue, rfl⟩ := namedArgument_ok h
  -- the name was read as a reference to a message, whose only child it is
  have hname : Filled source m c [.identifier id] := by
    obtain ⟨hlo, hsound, hhi⟩ := he.row
    have hmem : Node.identifier id ∈ (Node.inline (.messageRef id none span)).children :=
      List.mem_cons_self
    obtain ⟨hstart, hstop⟩ := hsound.placed.covers _ hmem
    exact ⟨he.start, he.reads, Nat.le_trans hlo hstart, hsound.child hmem, Nat.le_trans hstop hhi⟩
  obtain ⟨colon, hcolon⟩ := c.reads_next
  have hblank := hcolon.trans (c.next.reads_skipBlank)
  exact (hname.before_blank hblank).append (literal_fills (hblank.in hname.stop) hvalue)

private theorem comma_reads {comma : Bool} (h : CommaAt c comma d) : ∃ text, c.Reads text d := by
  obtain ⟨-, hpeek, rfl⟩ | ⟨-, -, rfl⟩ := h
  · exact ⟨_, (Cursor.reads_next_of_peek hpeek).trans (c.next.reads_skipBlank)⟩
  · exact ⟨[], .refl _⟩

/-- The arguments gathered so far, which are kept newest first. -/
private def gathered (seen : List ListedArgument) : Arguments :=
  ⟨seen.reverse.filterMap (·.argument.positional?), ListedArgument.named seen.reverse⟩

/-- A positional argument comes before all named ones, so the nodes of the list are in order. -/
private theorem listedArgument_fills (hnested : nested.Fills source) {seen : List ListedArgument}
    {a : ListedArgument} (hseen : Filled source m c (Node.ofArguments (gathered seen)))
    (h : listedArgument nested seen c = .ok (a, d)) :
    Filled source m d (Node.ofArguments (gathered (a :: seen))) := by
  obtain ⟨e, m₁, m₂, he, hcomma, hargument⟩ := listedArgument_ok h
  obtain ⟨comma, hcomma⟩ := comma_reads hcomma
  have hend := (m₂.reads_skipBlank).trans hcomma
  have hinline := (hnested.inline hseen.stop he).before_blank (m₁.reads_skipBlank)
  obtain ⟨b, -, hb, hnamed⟩ | ⟨-, hnone, he, rfl⟩ := hargument
  · have hrow := hseen.append ((namedArgument_fills hinline hnamed).before_blank hend)
    have hpositional : a.argument.positional? = none := by rw [hb]; rfl
    have hname : a.argument.named? = some b := by rw [hb]; rfl
    simpa [Node.ofArguments, gathered, ListedArgument.named, hpositional, hname] using hrow
  · have hrow := hseen.append (hinline.before_blank hend)
    have hpositional : a.argument.positional? = some e := by rw [he]; rfl
    have hnamed : a.argument.named? = none := by rw [he]; rfl
    have hnone : seen.filterMap (·.argument.named?) = [] := hnone
    simpa [Node.ofArguments, gathered, ListedArgument.named, hpositional, hnamed, hnone] using hrow

theorem arguments_fills (hnested : nested.Fills source) :
    (arguments nested).Fills source Node.ofArguments := by
  intro c args d hc h
  obtain ⟨listed, m, hopen, hlisted, hclose, rfl, rfl⟩ := arguments_ok h
  have hstart := (Cursor.reads_next_of_peek hopen).trans (c.next.reads_skipBlank)
  have hrow := gather_induction
    (motive := fun seen d => Filled source c d (Node.ofArguments (gathered seen)))
    (fun _ _ _ _ hseen _ hrun => listedArgument_fills hnested hseen hrun)
    (.blank hc hstart) hlisted
  simp only [gathered, List.reverse_reverse] at hrow
  exact hrow.before_blank (Cursor.reads_next_of_peek hclose)

-- ---------------------------------------------------------------------------
-- References
-- ---------------------------------------------------------------------------

theorem accessor_fills : accessor.Fills source fun attr => attr.toList.map .identifier := by
  intro c attr d hc h
  obtain ⟨-, rfl, rfl⟩ | ⟨id, hdot, hid, rfl⟩ := accessor_ok h
  · exact .blank hc (.refl _)
  · have hdot := Cursor.reads_next_of_peek hdot
    exact (identifier_fills (hdot.in hc) hid).after_blank hc hdot

theorem variableRef_fills : variableRef.Fills source fun e => [.inline e] := by
  intro c e d hc h
  obtain ⟨id, hid, rfl⟩ := variableRef_ok h
  obtain ⟨dollar, hdollar⟩ := c.reads_next
  have hrow := (identifier_fills (hdollar.in hc) hid).after_blank hc hdollar
  exact hrow.node rfl fun _ _ => trivial

theorem termRef_fills (hnested : nested.Fills source) :
    (termRef nested).Fills source fun e => [.inline e] := by
  intro c e d hc h
  obtain ⟨id, attr, args, m₁, m₂, hid, hattr, rfl, hargs⟩ := termRef_ok h
  obtain ⟨dash, hdash⟩ := c.reads_next
  have hid := (identifier_fills (hdash.in hc) hid).after_blank hc hdash
  have hname := hid.append (accessor_fills hid.stop hattr)
  obtain ⟨-, rfl, rfl⟩ | ⟨a, hargs, rfl⟩ := hargs
  · exact Filled.node (by simpa [Node.children] using hname) rfl fun _ _ => trivial
  · have hblank := m₂.reads_skipBlank
    have hargs := arguments_fills hnested (hblank.in hname.stop) hargs
    have hrow := (hname.before_blank hblank).append hargs
    exact Filled.node (by simpa [Node.children] using hrow) rfl fun _ _ => trivial

theorem callOrMessageRef_fills (hnested : nested.Fills source) :
    (callOrMessageRef nested).Fills source fun e => [.inline e] := by
  intro c e d hc h
  obtain ⟨id, m, hid, ⟨args, -, hargs, rfl⟩ | ⟨attr, -, hattr, rfl⟩⟩ := callOrMessageRef_ok h
  all_goals have hid := identifier_fills hc hid
  · have hblank := m.reads_skipBlank
    have hargs := arguments_fills hnested (hblank.in hid.stop) hargs
    exact ((hid.before_blank hblank).append hargs).node rfl fun _ _ => trivial
  · exact (hid.append (accessor_fills hid.stop hattr)).node rfl fun _ _ => trivial

-- ---------------------------------------------------------------------------
-- Selections
-- ---------------------------------------------------------------------------

theorem variantKey_fills : variantKey.Fills source fun key => [Node.ofKey key] := by
  intro c key d hc h
  obtain ⟨n, -, hn, rfl⟩ | ⟨id, hid, rfl⟩ := variantKey_ok h
  · exact number_fills hc hn
  · exact identifier_fills hc hid

theorem variant_fills (hnested : nested.Fills source) (seen : List Variant) :
    (variant nested seen).Fills source fun v => [.variant v] := by
  intro c v d hc h
  obtain ⟨isDefault, key, value, m₁, m₂, hdefault, hopen, hkey, hclose, hvalue, rfl⟩ := variant_ok h
  have hstart : ∃ text, c.Reads text m₁ := by
    obtain ⟨-, hstar, -, rfl⟩ | ⟨-, -, rfl⟩ := defaultMark_ok hdefault
    · exact ⟨_, Cursor.reads_next_of_peek hstar⟩
    · exact ⟨[], .refl _⟩
  obtain ⟨text, hstart⟩ := hstart
  have hopen := hstart.trans ((Cursor.reads_next_of_peek hopen).trans (m₁.next.reads_skipBlank))
  have hclose := (m₂.reads_skipBlank).trans (Cursor.reads_next_of_peek hclose)
  have hkey := ((variantKey_fills (hopen.in hc) hkey).after_blank hc hopen).before_blank hclose
  have hvalue := requiredPattern_fills hnested.placeable hkey.stop hvalue
  exact (hkey.append hvalue).node rfl fun _ _ => trivial

theorem variants_fills (hnested : nested.Fills source) :
    (variants nested).Fills source fun vs => vs.map .variant := by
  intro c vs d hc h
  obtain ⟨hvs, -⟩ := variants_ok h
  have hblank := c.reads_skipBlank
  have hrow := gather_fills (f := fun v => [Node.variant v]) (fun seen c v d hc _ h => by
      obtain ⟨m, hv, -, rfl⟩ := variantLine_ok h
      obtain ⟨lineEnd, hend⟩ := m.reads_next
      exact (variant_fills hnested seen hc hv).before_blank
        (hend.trans (m.next.reads_skipBlank)))
    (.blank hc hblank) hvs
  rwa [← List.map_eq_flatMap] at hrow

/-- The selector was read before the arrow, from the cursor `m`. -/
theorem selection_fills (hnested : nested.Fills source) {selector : Inline} {s : Selection}
    (hselector : Filled source m c [.inline selector])
    (h : selection nested m selector c = .ok (s, d)) : Filled source m d [.selection s] := by
  obtain ⟨vs, -, -, hvs, rfl⟩ := selection_ok h
  obtain ⟨arrow, harrow⟩ := c.reads_advance 2
  have hspaces := harrow.trans ((c.advance 2).reads_skipSpaces)
  obtain ⟨lineEnd, hend⟩ := (c.advance 2).skipSpaces.reads_next
  have hhead := hselector.before_blank (hspaces.trans hend)
  exact (hhead.append (variants_fills hnested hhead.stop hvs)).node rfl fun _ _ => trivial

-- ---------------------------------------------------------------------------
-- Placeables
-- ---------------------------------------------------------------------------

theorem expression_fills (hnested : nested.Fills source) :
    (expression nested).Fills source fun e => [Node.ofExpression e] := by
  intro c e d hc h
  obtain ⟨i, m, hi, hrest⟩ := expression_ok h
  have hi := (hnested.inline hc hi).before_blank (m.reads_skipBlank)
  obtain ⟨s, -, hs, rfl⟩ | ⟨-, rfl, rfl, -⟩ := hrest
  · exact selection_fills hnested hi hs
  · exact hi

theorem placeableWith_fills (hnested : nested.Fills source) :
    (placeableWith nested).Fills source fun p => [.placeable p] := by
  intro c p d hc h
  obtain ⟨e, m, hopen, he, hclose, rfl, rfl⟩ := placeableWith_ok h
  have hopen := Cursor.reads_next_of_peek hopen
  have hclose := Cursor.reads_next_of_peek hclose
  have hblank := c.next.reads_skipBlank
  have hinner := (expression_fills hnested (hblank.in (hopen.in hc)) he).after_blank
    (hopen.in hc) hblank
  refine ((hinner.after_blank hc hopen).before_blank hclose).node rfl fun text ht => ?_
  obtain ⟨inner, hreads⟩ := hinner.reads
  exact ⟨inner, ht.unique (hopen.trans (hreads.trans hclose))⟩

theorem inlineWith_fills (hnested : nested.Fills source) :
    (inlineWith nested).Fills source fun e => [.inline e] := by
  intro c e d hc h
  obtain ⟨n, -, hn, rfl⟩ | ⟨p, hp, rfl⟩ | ⟨s, hs, rfl⟩ | ⟨-, h⟩ | ⟨-, h⟩ | h := inlineWith_ok h
  · obtain ⟨-, hspan⟩ := number_reads hn
    exact (number_fills hc hn).node hspan fun _ _ => trivial
  · obtain ⟨_, _, _, _, _, _, rfl⟩ := placeableWith_ok hp
    exact (placeableWith_fills hnested hc hp).node rfl fun _ _ => trivial
  · obtain ⟨_, _, _, _, _, _, rfl⟩ := stringLiteral_ok hs
    exact (stringLiteral_fills hc hs).node rfl fun _ _ => trivial
  · exact variableRef_fills hc h
  · exact termRef_fills hnested hc h
  · exact callOrMessageRef_fills hnested hc h

private theorem nested_fills (c : Cursor) :
    (∀ e d, c.In source.toList → inline c = .ok (e, d) → Filled source c d [.inline e]) ∧
      ∀ p d, c.In source.toList → Parser.placeable c = .ok (p, d) →
        Filled source c d [.placeable p] := by
  have hwithin : ∀ c : Cursor, (∀ d : Cursor, d.rest.length < c.rest.length →
      (∀ e m, d.In source.toList → inline d = .ok (e, m) → Filled source d m [.inline e]) ∧
        ∀ p m, d.In source.toList → Parser.placeable d = .ok (p, m) →
          Filled source d m [.placeable p]) → (within c.rest.length).Fills source :=
    fun c hshorter =>
      ⟨fun d e m hd h => let ⟨hlt, h⟩ := within_inline_ok.1 h; (hshorter d hlt).1 e m hd h,
        fun d p m hd h => let ⟨hlt, h⟩ := within_placeable_ok.1 h; (hshorter d hlt).2 p m hd h⟩
  exact nested_induction
    (P := fun c r => ∀ e d, c.In source.toList → r = .ok (e, d) → Filled source c d [.inline e])
    (Q := fun c r => ∀ p d, c.In source.toList → r = .ok (p, d) → Filled source c d [.placeable p])
    (fun c hshorter _ _ hc h => inlineWith_fills (hwithin c hshorter) hc h)
    (fun c hshorter _ _ hc h => placeableWith_fills (hwithin c hshorter) hc h) c

theorem inline_fills : Parser.Fills source (fun e => [.inline e]) inline :=
  fun c e d => (nested_fills c).1 e d

theorem placeable_fills : Parser.Fills source (fun p => [.placeable p]) Parser.placeable :=
  fun c p d => (nested_fills c).2 p d

end Parser

end MessageLint
