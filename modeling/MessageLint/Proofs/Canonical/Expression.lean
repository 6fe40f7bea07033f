-- SUMMARY: References, selections and placeables are recovered from their texts.
import MessageLint.Proofs.Canonical.Argument

/-!
# Recovery of expressions

Every construct is recovered under the assumption that the parsers for what is nested in it recover
shorter texts (`RecoversNested`). That assumption is discharged at the end, by induction on the length
of the text.
-/

namespace MessageLint

-- ---------------------------------------------------------------------------
-- Lines of variants
-- ---------------------------------------------------------------------------

namespace Variant

/-- The spaces in front of a variant; the mark of the default takes the place of one. -/
def indent (v : Variant) : List Char :=
  if v.isDefault then [' ', ' ', ' '] else [' ', ' ', ' ', ' ']

def body (v : Variant) : List Char :=
  (if v.isDefault then ['*'] else []) ++ '[' :: (v.key.render ++ ']' :: ' ' :: v.value.render)

theorem render_eq (v : Variant) : v.render = v.indent ++ (v.body ++ ['\n']) := by
  obtain ⟨key, value, isDefault, span⟩ := v
  cases isDefault <;> simp [render, indent, body]

/-- Variants from the mark or bracket of the first one on. -/
def renderFrom : List Variant → List Char
  | [] => []
  | v :: vs => v.body ++ '\n' :: renderAll vs

def firstIndent : List Variant → List Char
  | [] => []
  | v :: _ => v.indent

theorem renderAll_eq (vs : List Variant) : renderAll vs = firstIndent vs ++ renderFrom vs := by
  cases vs with
  | nil => rfl
  | cons v vs => simp [renderAll, render_eq, firstIndent, renderFrom]

theorem isSpace_firstIndent (vs : List Variant) : ∀ ch ∈ firstIndent vs, ch = ' ' := by
  cases vs with
  | nil => simp [firstIndent]
  | cons v vs =>
    rw [firstIndent, indent]
    split <;> simp

end Variant

theorem Inline.isTermAttribute_respan (f : Span → Span) (e : Inline) :
    (e.respan f).IsTermAttribute ↔ e.IsTermAttribute := by
  cases e with
  | termRef id attr args span => cases attr <;> simp [IsTermAttribute]
  | literal | functionCall | messageRef | variableRef | placeable => exact Iff.rfl

namespace Parser

variable {nested : Nested} {size : Nat} {rest : List Char}

-- ---------------------------------------------------------------------------
-- References
-- ---------------------------------------------------------------------------

theorem accessor_recovers {attr : Option Identifier} (hattr : ∀ a ∈ attr, a.Canonical)
    (hrest : EndsWord rest) :
    accessor.Recovers (Option.map (·.respan .forget)) attr (renderAccessor attr) rest := by
  refine .peek_bind ?_
  cases attr with
  | none =>
    rw [renderAccessor, List.nil_append, if_neg hrest.head]
    exact .pure rfl
  | some id =>
    rw [renderAccessor, List.cons_append, List.head?_cons, if_pos rfl]
    refine .skip_one_bind (.bind_last (identifier_recovers (hattr id rfl) hrest.stops) ?_)
    exact fun id' hid' => .pure (congrArg some hid')

theorem stops_accessor {attr : Option Identifier} (hrest : EndsWord rest) :
    Stops isNameChar (renderAccessor attr ++ rest) := by
  cases attr with
  | none => exact hrest.stops
  | some id => exact stops_cons.2 rfl

theorem variableRef_recovers {id : Identifier} {span : Span} (hid : id.Canonical)
    (hrest : EndsWord rest) :
    variableRef.Recovers (·.respan .forget) (.variableRef id span) ('$' :: id.render) rest := by
  refine .place_bind fun start _ => .skip_one_bind ?_
  refine .bind_last (identifier_recovers hid hrest.stops) fun id' hid' => ?_
  refine .spanFrom_bind fun _ => .pure ?_
  simp [Inline.respan, hid']

theorem termRef_recovers {id : Identifier} {attr : Option Identifier} {span : Span}
    (hid : id.Canonical) (hattr : ∀ a ∈ attr, a.Canonical) (hrest : Closed rest) :
    (termRef nested).Recovers (·.respan .forget) (.termRef id attr none span)
      ('-' :: (id.render ++ renderAccessor attr)) rest := by
  refine .place_bind fun start _ => .skip_one_bind ?_
  refine .bind (identifier_recovers hid (stops_accessor hrest.word)) fun id' hid' => ?_
  refine .bind_last (accessor_recovers hattr hrest.word) fun attr' hattr' => ?_
  refine .bind_nil (g := fun b => b) (a := false) ?_ fun called hcalled => ?_
  · intro offset
    exact ⟨false, offset, skipBlankBefore_ok.2 (.inr ⟨rfl, hrest.call, rfl⟩), rfl⟩
  · obtain rfl : called = false := hcalled
    refine .spanFrom_bind fun _ => .pure ?_
    simp [hid', hattr']

theorem termCall_recovers {id : Identifier} {attr : Option Identifier} {args : Arguments}
    {span : Span} (hnested : RecoversNested nested size) (hid : id.Canonical)
    (hattr : ∀ a ∈ attr, a.Canonical) (hargs : args.Canonical)
    (hsize : (args.render ++ rest).length ≤ size) :
    (termRef nested).Recovers (·.respan .forget) (.termRef id attr (some args) span)
      ('-' :: (id.render ++ (renderAccessor attr ++ args.render))) rest := by
  obtain ⟨tail, hopen⟩ := Arguments.exists_open args rest
  have hword : EndsWord (args.render ++ rest) := by
    rw [hopen]
    exact stops_cons.2 rfl
  refine .place_bind fun start _ => .skip_one_bind ?_
  refine .bind (identifier_recovers hid ?_) fun id' hid' => ?_
  · rw [List.append_assoc]
    exact stops_accessor hword
  refine .bind (accessor_recovers hattr hword) fun attr' hattr' => ?_
  refine .bind_nil (g := fun b => b) (a := true) ?_ fun called hcalled => ?_
  · intro offset
    rw [hopen]
    exact ⟨true, offset, rfl, rfl⟩
  · obtain rfl : called = true := hcalled
    rw [if_pos rfl, map_bind]
    refine .bind_last (arguments_recovers hnested hargs hsize) fun args' hargs' => ?_
    refine .spanFrom_bind fun _ => .pure ?_
    simp [hid', hattr', hargs']

theorem messageRef_recovers (nested : Nested) {id : Identifier} {attr : Option Identifier}
    (span : Span) (hid : id.Canonical) (hattr : ∀ a ∈ attr, a.Canonical) (hrest : Closed rest) :
    (callOrMessageRef nested).Recovers (·.respan .forget) (.messageRef id attr span)
      (id.render ++ renderAccessor attr) rest := by
  refine .place_bind fun start _ => ?_
  refine .bind (identifier_recovers hid (stops_accessor hrest.word)) fun id' hid' => ?_
  refine .place_bind fun c hc => ?_
  have hcall : c.skipBlank.peek ≠ some '(' := by
    change (c.rest.dropWhile Cursor.isBlank).head? ≠ some '('
    rw [hc]
    cases attr with
    | none => exact hrest.call
    | some a => simp [renderAccessor, Cursor.isBlank]
  rw [if_neg hcall]
  refine .bind_last (accessor_recovers hattr hrest.word) fun attr' hattr' => ?_
  refine .spanFrom_bind fun _ => .pure ?_
  simp [Inline.respan, hid', hattr']

theorem functionCall_recovers {callee : Identifier} {args : Arguments} (span : Span)
    (hnested : RecoversNested nested size) (hcallee : isCallee callee.name.toList)
    (hargs : args.Canonical) (hsize : (args.render ++ rest).length ≤ size) :
    (callOrMessageRef nested).Recovers (·.respan .forget) (.functionCall callee args span)
      (callee.render ++ args.render) rest := by
  obtain ⟨tail, hopen⟩ := Arguments.exists_open args rest
  refine .place_bind fun start _ => ?_
  refine .bind (identifier_recovers (isName_of_isCallee hcallee) ?_) fun id' hid' => ?_
  · rw [hopen]
    exact stops_cons.2 rfl
  refine .place_bind fun c hc => ?_
  have hcall : c.skipBlank.peek = some '(' := by
    change (c.rest.dropWhile Cursor.isBlank).head? = some '('
    rw [hc, hopen]
    rfl
  have hname : id'.name = callee.name := by simpa [Identifier.respan] using hid'
  rw [if_pos hcall, hname, if_pos hcallee]
  refine .skipBlank_bind_nil ?_ ?_
  · rw [hopen]
    exact stops_cons.2 rfl
  refine .bind_last (arguments_recovers hnested hargs hsize) fun args' hargs' => ?_
  refine .spanFrom_bind fun _ => .pure ?_
  simp [Inline.respan, hid', hargs']

-- ---------------------------------------------------------------------------
-- Selections
-- ---------------------------------------------------------------------------

theorem defaultMark_recovers {seen : List Variant} {isDefault : Bool}
    (hseen : isDefault → ∀ v ∈ seen, v.isDefault = false) (hrest : rest.head? ≠ some '*') :
    (defaultMark seen).Recovers id isDefault (if isDefault then ['*'] else []) rest := by
  refine .peek_bind ?_
  cases isDefault with
  | false =>
    change (if rest.head? = some '*' then _ else _ : Parser Bool).Recovers id false [] rest
    rw [if_neg hrest]
    exact .pure rfl
  | true =>
    have hany : ¬seen.any (·.isDefault) := by simpa using hseen rfl
    rw [if_pos rfl, List.cons_append, List.head?_cons, if_pos rfl, if_neg hany]
    exact .skip_one_bind (.pure rfl)

theorem variant_recovers {seen : List Variant} {v : Variant} (hnested : RecoversNested nested size)
    (hv : v.Canonical) (hseen : v.isDefault → ∀ w ∈ seen, w.isDefault = false)
    (hsize : (v.value.render ++ rest).length < size) (hrest : EndsPattern rest) :
    (variant nested seen).Recovers (·.respan .forget) v v.body rest := by
  obtain ⟨key, value, isDefault, span⟩ := v
  refine .place_bind fun start _ => ?_
  refine .bind (defaultMark_recovers hseen (by simp)) fun isDefault' hdefault => ?_
  obtain rfl : isDefault' = isDefault := hdefault
  have hblank : Stops Cursor.isBlank (key.render ++ ']' :: ' ' :: value.render ++ rest) := by
    obtain ⟨ch, tail, hhead, hblank, -⟩ := VariantKey.exists_head hv.1
    rw [hhead]
    exact stops_cons.2 hblank
  refine .token_bind (.skipBlank_bind_nil hblank ?_)
  refine .bind (variantKey_recovers hv.1 (stops_cons.2 rfl)) fun key' hkey => ?_
  refine .skipBlank_bind_nil (stops_cons.2 rfl) (.token_bind ?_)
  have hpattern := requiredPattern_recovers hnested.placeable hv.2 hsize hrest
  refine .bind_last hpattern fun value' hvalue => ?_
  refine .spanFrom_bind fun _ => .pure ?_
  simp [Variant.respan, hkey, hvalue]

theorem endsPattern_variants (vs : List Variant) :
    EndsPattern ('\n' :: (Variant.renderAll vs ++ '\x7d' :: rest)) := by
  rw [Variant.renderAll_eq, List.append_assoc]
  cases vs with
  | nil => exact endsPattern_line (Variant.isSpace_firstIndent []) rfl (by decide) (.inl rfl)
  | cons v vs =>
    have hspaces := Variant.isSpace_firstIndent (v :: vs)
    obtain ⟨key, value, isDefault, span⟩ := v
    cases isDefault with
    | true => exact endsPattern_line hspaces rfl (by decide) (.inr (by simp))
    | false => exact endsPattern_line hspaces rfl (by decide) (.inr (by simp))

/-- What follows the indentation of variants is not blank. -/
theorem stops_variants (vs : List Variant) :
    Stops Cursor.isBlank (Variant.renderFrom vs ++ '\x7d' :: rest) := by
  cases vs with
  | nil => exact stops_cons.2 rfl
  | cons v vs =>
    obtain ⟨key, value, isDefault, span⟩ := v
    cases isDefault <;> exact stops_cons.2 rfl

theorem isBlank_firstIndent (vs : List Variant) :
    ∀ ch ∈ Variant.firstIndent vs, Cursor.isBlank ch := fun ch hch => by
  rw [Variant.isSpace_firstIndent vs ch hch]
  rfl

/-- A variant line takes the indentation of the next line with it. -/
theorem variantLine_recovers {seen vs : List Variant} {v : Variant}
    (hnested : RecoversNested nested size) (hv : v.Canonical)
    (hseen : v.isDefault → ∀ w ∈ seen, w.isDefault = false)
    (hsize : (v.body ++ '\n' :: (Variant.renderAll vs ++ '\x7d' :: rest)).length < size) :
    (variantLine nested seen).Recovers (·.respan .forget) v
      (v.body ++ '\n' :: Variant.firstIndent vs) (Variant.renderFrom vs ++ '\x7d' :: rest) := by
  have hbehind : '\n' :: Variant.firstIndent vs ++ (Variant.renderFrom vs ++ '\x7d' :: rest) =
      '\n' :: (Variant.renderAll vs ++ '\x7d' :: rest) := by
    rw [Variant.renderAll_eq, List.cons_append, List.append_assoc]
  have hvalue :
      (v.value.render ++ '\n' :: (Variant.renderAll vs ++ '\x7d' :: rest)).length < size := by
    simp only [Variant.body, List.length_append, List.length_cons] at hsize ⊢
    omega
  have hvariant : (variant nested seen).Recovers (·.respan .forget) v v.body
      ('\n' :: Variant.firstIndent vs ++ (Variant.renderFrom vs ++ '\x7d' :: rest)) := by
    rw [hbehind]
    exact variant_recovers hnested hv hseen hvalue (endsPattern_variants vs)
  refine .bind hvariant fun v' hv' => .lineEnd_bind ?_
  exact .skipBlank_bind_last (isBlank_firstIndent vs) (stops_variants vs) (.pure hv')

theorem gather_variants_recovers {vs : List Variant} (hnested : RecoversNested nested size)
    (hvs : Variant.AllCanonical vs) (hdefault : vs.countP (·.isDefault) ≤ 1)
    (hsize : (Variant.renderFrom vs ++ '\x7d' :: rest).length < size) :
    (gather (fun _ c => c.startsVariant) (variantLine nested) []).Recovers
      (List.map (·.respan .forget)) vs (Variant.renderFrom vs) ('\x7d' :: rest) := by
  apply Recovers.gather (M := fun seen todo text => text = Variant.renderFrom todo ∧
    Variant.AllCanonical todo ∧ (seen.countP (·.isDefault) + todo.countP (·.isDefault) ≤ 1) ∧
    (text ++ '\x7d' :: rest).length < size)
  · rintro seen text ⟨rfl, -⟩
    exact ⟨rfl, fun _ => rfl⟩
  · rintro seen v vs text ⟨rfl, ⟨hv, hvs⟩, hcount, hsize⟩
    have htext : Variant.renderFrom (v :: vs) =
        v.body ++ '\n' :: Variant.firstIndent vs ++ Variant.renderFrom vs := by
      rw [Variant.renderFrom, Variant.renderAll_eq, List.append_assoc, List.cons_append]
    have hfirst : v.isDefault → ∀ w ∈ seen, w.isDefault = false := by
      intro hv
      rw [List.countP_cons, if_pos hv] at hcount
      simpa using (List.countP_eq_zero (p := (·.isDefault)) (l := seen)).1 (by omega)
    refine ⟨_, Variant.renderFrom vs, htext, by simp, ?_,
      variantLine_recovers hnested hv hfirst ?_, ?_⟩
    · intro offset
      obtain ⟨key, value, isDefault, span⟩ := v
      cases isDefault <;> rfl
    · rw [Variant.renderFrom, List.append_assoc] at hsize
      exact hsize
    · intro v' hv'
      have hsame : v'.isDefault = v.isDefault := by
        rw [← Variant.isDefault_respan .forget, hv', Variant.isDefault_respan]
      refine ⟨rfl, hvs, ?_, ?_⟩
      · simp only [List.countP_cons, hsame] at hcount ⊢
        omega
      · rw [htext, List.append_assoc, List.length_append] at hsize
        omega
  · exact ⟨rfl, hvs, by simpa using hdefault, hsize⟩

theorem variants_recovers {vs : List Variant} (hnested : RecoversNested nested size)
    (hvs : Variant.AllCanonical vs) (hdefault : vs.countP (·.isDefault) = 1)
    (hsize : (Variant.renderAll vs ++ '\x7d' :: rest).length < size) :
    (variants nested).Recovers (List.map (·.respan .forget)) vs (Variant.renderAll vs)
      ('\x7d' :: rest) := by
  rw [Variant.renderAll_eq]
  refine .skipBlank_bind _ (isBlank_firstIndent vs) (stops_variants vs) ?_
  have hfrom : (Variant.renderFrom vs ++ '\x7d' :: rest).length < size := by
    rw [Variant.renderAll_eq, List.append_assoc, List.length_append] at hsize
    omega
  have hloop := gather_variants_recovers hnested hvs (Nat.le_of_eq hdefault) hfrom
  refine .bind_last hloop fun vs' hvs' => ?_
  have hany : vs'.any (·.isDefault) = vs.any (·.isDefault) := by
    have hmap := congrArg (List.any · (·.isDefault)) hvs'
    simpa [Function.comp_def] using hmap
  have hdefault' : vs.any (·.isDefault) := by
    have hpos : 0 < vs.countP (·.isDefault) := by omega
    simpa using List.countP_pos_iff.1 hpos
  have hne : ¬vs'.isEmpty := by
    intro hempty
    simp [List.isEmpty_iff.1 hempty, hdefault'] at hany
  rw [if_neg hne, hany, if_pos hdefault']
  exact .pure hvs'

theorem selectorFault?_of_selects {e : Inline} (h : e.Selects) : e.selectorFault? = none := by
  cases e with
  | messageRef | placeable => exact h.elim
  | termRef id attr args span =>
    cases attr with
    | none => exact h.elim
    | some => rfl
  | literal | functionCall | variableRef => rfl

theorem selection_recovers (start : Cursor) {selector selector' : Inline} {vs : List Variant}
    (span : Span) (hnested : RecoversNested nested size) (hselects : selector.Selects)
    (hselector : selector'.respan .forget = selector.respan .forget)
    (hvs : Variant.AllCanonical vs) (hdefault : vs.countP (·.isDefault) = 1)
    (hsize : (Variant.renderAll vs ++ '\x7d' :: rest).length < size) :
    (selection nested start selector').Recovers (·.respan .forget) ⟨selector, vs, span⟩
      ('-' :: '>' :: '\n' :: Variant.renderAll vs) ('\x7d' :: rest) := by
  have hfault : selector'.selectorFault? = none := by
    rw [← Inline.selectorFault?_respan .forget, hselector, Inline.selectorFault?_respan,
      selectorFault?_of_selects hselects]
  simp only [selection, hfault]
  refine .skip_bind ['-', '>'] rfl (.skipSpaces_bind [] (by simp) ?_ ?_)
  · exact stops_cons.2 rfl
  · refine .lineEnd_bind ?_
    refine .bind_last (variants_recovers hnested hvs hdefault hsize) fun vs' hvs' => ?_
    refine .spanFrom_bind fun _ => .pure ?_
    simp [Selection.respan, hselector, hvs']

-- ---------------------------------------------------------------------------
-- Placeables
-- ---------------------------------------------------------------------------

theorem expression_recovers {e : Expression} (hnested : RecoversNested nested size)
    (he : e.Canonical) (hsize : (e.render ++ '\x7d' :: rest).length < size) :
    (expression nested).Recovers (·.respan .forget) e e.render ('\x7d' :: rest) := by
  refine .place_bind fun start _ => ?_
  cases e with
  | inline e =>
    have hclosed : Closed (' ' :: '\x7d' :: rest) := ⟨stops_cons.2 rfl, by simp [Cursor.isBlank]⟩
    have hlength : (e.render ++ ' ' :: '\x7d' :: rest).length < size := by
      rwa [Expression.render, List.append_assoc] at hsize
    refine .bind (hnested.inline e _ he.1 hclosed hlength) fun e' he' => ?_
    refine .skipBlank_bind_last (by simp [Cursor.isBlank]) (stops_cons.2 rfl) ?_
    refine .place_bind fun c hc => ?_
    have harrow : ¬['-', '>'].isPrefixOf c.rest := by simp [hc]
    rw [if_neg harrow]
    split
    · next id attr args span =>
      refine absurd ?_ he.2
      rw [← Inline.isTermAttribute_respan .forget, ← he', Inline.isTermAttribute_respan]
      trivial
    · exact .pure (congrArg Expression.inline he')
  | select s =>
    obtain ⟨selector, vs, span⟩ := s
    obtain ⟨hselector, hselects, hdefault, hvs⟩ := he
    have hclosed : Closed (' ' :: '-' :: '>' :: '\n' :: Variant.renderAll vs ++ '\x7d' :: rest) :=
      ⟨stops_cons.2 rfl, by simp [Cursor.isBlank]⟩
    rw [Expression.render, Selection.render] at hsize ⊢
    rw [List.append_assoc] at hsize
    refine .bind (hnested.inline selector _ hselector hclosed hsize) fun e' he' => ?_
    refine .skipBlank_bind [' '] (by simp [Cursor.isBlank]) (stops_cons.2 rfl) ?_
    refine .place_bind fun c hc => ?_
    have harrow : ['-', '>'].isPrefixOf c.rest := by simp [hc]
    have hvariants : (Variant.renderAll vs ++ '\x7d' :: rest).length < size := by
      simp only [List.length_append, List.length_cons] at hsize ⊢
      omega
    rw [if_pos harrow]
    have hselection := selection_recovers start span hnested hselects he' hvs hdefault hvariants
    refine .bind_last hselection fun s' hs' => ?_
    exact .pure (congrArg Expression.select hs')

theorem placeableWith_recovers {p : Placeable} (hnested : RecoversNested nested size)
    (hp : p.Canonical) (hsize : (p.render ++ rest).length ≤ size) :
    (placeableWith nested).Recovers (·.respan .forget) p p.render rest := by
  obtain ⟨e, span⟩ := p
  have hopens : Stops Cursor.isBlank (e.render ++ ['\x7d'] ++ rest) := by
    obtain ⟨ch, tail, hhead, hblank⟩ := Expression.exists_head hp
    rw [hhead]
    exact stops_cons.2 hblank
  have hlength : (e.render ++ '\x7d' :: rest).length < size := by
    rw [Placeable.render] at hsize
    simp only [List.length_append, List.length_cons, List.length_nil] at hsize ⊢
    omega
  rw [Placeable.render]
  refine .place_bind fun start _ => .token_bind ?_
  refine .skipBlank_bind [' '] (by simp [Cursor.isBlank]) hopens ?_
  refine .bind (expression_recovers hnested hp hlength) fun e' he' => ?_
  refine .token_bind (.spanFrom_bind fun _ => .pure ?_)
  simp [Placeable.respan, he']

/-- A dash in front of a letter is not a sign. -/
theorem startsNumber_dash {c : Cursor} {first : Char} {tail : List Char}
    (hc : c.rest = '-' :: first :: tail) (hfirst : first.isAlpha) : c.startsNumber = false := by
  unfold Cursor.startsNumber
  rw [hc]
  exact isDigit_of_isAlpha hfirst

/-- An expression that starts with a letter is a call or a reference to a message. -/
theorem inlineWith_of_name {e : Inline} {first : Char} {tail : List Char} (hfirst : first.isAlpha)
    (h : (callOrMessageRef nested).Recovers (·.respan .forget) e (first :: tail) rest) :
    (inlineWith nested).Recovers (·.respan .forget) e (first :: tail) rest := by
  refine .place_bind fun start hstart => ?_
  have hne : ∀ d : Char, d.isAlpha = false → first ≠ d := by
    rintro d hd rfl
    simp [hd] at hfirst
  have hnumber : start.startsNumber = false :=
    startsNumber_eq_false hstart (hne '-' (by decide)) (isDigit_of_isAlpha hfirst)
  have hpeek : start.peek = some first := by simp [Cursor.peek, hstart]
  rw [hnumber, if_neg (by decide)]
  generalize start.peek = found at hpeek ⊢
  split
  · exact absurd (Option.some.inj hpeek).symm (hne '\x7b' (by decide))
  · exact absurd (Option.some.inj hpeek).symm (hne '"' (by decide))
  · exact absurd (Option.some.inj hpeek).symm (hne '$' (by decide))
  · exact absurd (Option.some.inj hpeek).symm (hne '-' (by decide))
  · obtain rfl := Option.some.inj hpeek
    rw [if_pos hfirst]
    exact h
  · simp at hpeek

/-- One that starts with a dash in front of a name is a reference to a term. -/
theorem inlineWith_of_termRef {id : Identifier} {attr : Option Identifier} {args : Option Arguments}
    {span : Span} (hid : id.Canonical)
    (h : (termRef nested).Recovers (·.respan .forget) (.termRef id attr args span)
      (Inline.termRef id attr args span).render rest) :
    (inlineWith nested).Recovers (·.respan .forget) (.termRef id attr args span)
      (Inline.termRef id attr args span).render rest := by
  obtain ⟨first, tail, hname, halpha⟩ := exists_head_of_isName hid
  refine .place_bind fun start hstart => ?_
  obtain ⟨behind, hdash⟩ : ∃ behind, start.rest = '-' :: first :: behind := by
    cases args <;> simp [hstart, Inline.render, Identifier.render, hname]
  have hpeek : start.peek = some '-' := by simp [Cursor.peek, hdash]
  rw [startsNumber_dash hdash halpha, if_neg (by decide), hpeek]
  exact h

/-- A number or a quoted text is known by what it starts with. -/
theorem inlineWith_of_literal (nested : Nested) {l : Literal} (hl : l.Canonical)
    (hrest : EndsNumber rest) :
    (inlineWith nested).Recovers (·.respan .forget) (.literal l) l.render rest := by
  refine .place_bind fun start hstart => ?_
  cases l with
  | number n =>
    rw [if_pos (startsNumber_of_isNumber hl hstart)]
    refine .bind_last (number_recovers hl hrest) fun n' hn' => .pure ?_
    exact congrArg (Inline.literal ∘ Literal.number) hn'
  | string s =>
    have hnumber : start.startsNumber = false := startsNumber_eq_false hstart (by decide) (by decide)
    have hpeek : start.peek = some '"' := by simp [Cursor.peek, hstart, Literal.render]
    rw [hnumber, if_neg (by decide), hpeek]
    refine .bind_last quoted_recovers fun s' hs' => .pure ?_
    exact congrArg (Inline.literal ∘ Literal.string) hs'

theorem inlineWith_recovers {e : Inline} (hnested : RecoversNested nested size) (he : e.Canonical)
    (hrest : Closed rest) (hsize : (e.render ++ rest).length ≤ size) :
    (inlineWith nested).Recovers (·.respan .forget) e e.render rest := by
  cases e with
  | literal l => exact inlineWith_of_literal nested he hrest.word.endsNumber
  | functionCall callee args span =>
    rw [Inline.render] at hsize ⊢
    have hargs : (args.render ++ rest).length ≤ size := by
      simp only [List.length_append] at hsize ⊢
      omega
    obtain ⟨first, tail, hname, halpha⟩ := exists_head_of_isName (isName_of_isCallee he.1)
    have hrun := functionCall_recovers span hnested he.1 he.2 hargs
    rw [Identifier.render, hname, List.cons_append] at hrun ⊢
    exact inlineWith_of_name halpha hrun
  | messageRef id attr span =>
    obtain ⟨first, tail, hname, halpha⟩ := exists_head_of_isName he.1
    have hrun := messageRef_recovers nested span he.1 he.2 hrest
    rw [Inline.render]
    rw [Identifier.render, hname, List.cons_append] at hrun ⊢
    exact inlineWith_of_name halpha hrun
  | termRef id attr args span =>
    cases args with
    | none => exact inlineWith_of_termRef he.1 (termRef_recovers he.1 he.2 hrest)
    | some args =>
      refine inlineWith_of_termRef he.1 (termCall_recovers hnested he.1 he.2.1 he.2.2 ?_)
      rw [Inline.render] at hsize
      simp only [List.length_append, List.length_cons] at hsize ⊢
      omega
  | variableRef id span =>
    refine .place_bind fun start hstart => ?_
    have hnumber : start.startsNumber = false := startsNumber_eq_false hstart (by decide) (by decide)
    have hpeek : start.peek = some '$' := by simp [Cursor.peek, hstart, Inline.render]
    rw [hnumber, if_neg (by decide), hpeek]
    exact variableRef_recovers he hrest.word
  | placeable p =>
    refine .place_bind fun start hstart => ?_
    obtain ⟨e, pspan⟩ := p
    rw [Inline.render, Placeable.render] at hstart
    have hnumber : start.startsNumber = false := startsNumber_eq_false hstart (by decide) (by decide)
    have hpeek : start.peek = some '\x7b' := by simp [Cursor.peek, hstart]
    rw [hnumber, if_neg (by decide), hpeek]
    refine .bind_last (placeableWith_recovers hnested he hsize) fun p' hp' => .pure ?_
    exact congrArg Inline.placeable hp'

theorem within_recovers (size : Nat) : RecoversNested (within size) size := by
  induction size using Nat.strongRecOn with
  | _ size ih =>
    constructor
    · intro e rest he hrest hsize offset
      obtain ⟨e', m, hrun, he'⟩ := inlineWith_recovers (ih _ hsize) he hrest (Nat.le_refl _) offset
      exact ⟨e', m, within_inline_ok.2 ⟨hsize, (inline_eq _).trans hrun⟩, he'⟩
    · intro p rest hp hsize offset
      obtain ⟨p', m, hrun, hp'⟩ := placeableWith_recovers (ih _ hsize) hp (Nat.le_refl _) offset
      exact ⟨p', m, within_placeable_ok.2 ⟨hsize, (placeable_eq _).trans hrun⟩, hp'⟩

theorem placeable_recovers (size : Nat) : RecoversPlaceables placeable size := by
  intro p rest hp _ offset
  rw [placeable_eq]
  exact placeableWith_recovers (within_recovers _) hp (Nat.le_refl _) offset

end Parser

end MessageLint
