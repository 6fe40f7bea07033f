-- SUMMARY: Every node of a resource that was read is well formed.
import MessageLint.Proofs.Spans.Resource
import MessageLint.Proofs.WellFormed.Pattern

/-!
# Well-formed resources

`Node.WellFormed` says what the grammar promises of one node: how names and numbers are spelled, which
parts cannot be missing or stand twice, what may select and what may be shown. A parser that `Yields`
nodes gives only answers whose nodes are well formed at any depth; as with spans, constructs are proved
for any two parsers for what is nested in them.
-/

namespace MessageLint

-- ---------------------------------------------------------------------------
-- What the grammar promises
-- ---------------------------------------------------------------------------

/-- `[A-Z][A-Z0-9_-]*` -/
def IsCalleeName : List Char → Prop
  | [] => False
  | first :: rest => first.isUpper ∧ ∀ ch ∈ rest, ch.isUpper ∨ ch.isDigit ∨ ch = '_' ∨ ch = '-'

/-- No two named arguments have the same name. That their values are literals is in their type. -/
def Arguments.Distinct (args : Arguments) : Prop := (args.named.map (·.name.name)).Nodup

namespace Node

/-- What a node is, whatever stands below it. -/
def WellFormed : Node → Prop
  | .identifier id => IsName id.name.toList
  | .number n => IsNumber n.value.toList
  | .entry (.message m) => m.value.isSome ∨ m.attributes ≠ []
  | .pattern p => p.WellFormed
  | .placeable p => ∀ e, p.expression = .inline e → ¬e.IsTermAttribute
  | .selection s => s.variants ≠ [] ∧ s.variants.countP (·.isDefault) = 1 ∧ s.selector.Selects
  | .inline (.functionCall callee args _) => IsCalleeName callee.name.toList ∧ args.Distinct
  | .inline (.termRef _ _ args _) => ∀ a ∈ args, a.Distinct
  | _ => True

/-- The nodes of one argument of a call. -/
def ofArgument : Argument → List Node
  | .positional e => [.inline e]
  | .named a => ofNamed a

/-- `P` holds of a node and of all nodes below it. -/
def Every (P : Node → Prop) (n : Node) : Prop := ∀ k, n.Holds k → P k

theorem every_iff {P : Node → Prop} {n : Node} :
    n.Every P ↔ P n ∧ ∀ k ∈ n.children, k.Every P := by
  constructor
  · intro h
    exact ⟨h n (.self n), fun k hk l hl => h l (.child hk hl)⟩
  · rintro ⟨hn, hchildren⟩ k hk
    cases hk with
    | self => exact hn
    | child hmem hk => exact hchildren _ hmem k hk

end Node

/-- All nodes that `p` gives are well formed, at any depth. -/
def Parser.Yields (nodes : α → List Node) (p : Parser α) : Prop :=
  ∀ ⦃c a d⦄, p c = .ok (a, d) → ∀ n ∈ nodes a, n.Every Node.WellFormed

/-- Both parsers for what is nested in a construct give well-formed nodes. -/
structure Nested.Yields (nested : Nested) : Prop where
  inline : nested.inline.Yields fun e => [.inline e]
  placeable : nested.placeable.Yields fun p => [.placeable p]

namespace Parser

variable {c d : Cursor}

-- ---------------------------------------------------------------------------
-- Names and literals
-- ---------------------------------------------------------------------------

private theorem every_leaf {n : Node} (h : n.WellFormed) (hchildren : n.children = []) :
    ∀ k ∈ [n], k.Every Node.WellFormed :=
  List.forall_mem_singleton.2 (Node.every_iff.2 ⟨h, by simp [hchildren]⟩)

theorem isCalleeName_of_isCallee {name : List Char} (h : isCallee name) : IsCalleeName name := by
  cases name with
  | nil => simp [isCallee] at h
  | cons first rest =>
    simp only [isCallee, Bool.and_eq_true, List.all_eq_true, Bool.or_eq_true, beq_iff_eq] at h
    exact ⟨h.1, fun ch hch => by simpa only [or_assoc] using h.2 ch hch⟩

theorem identifier_yields : identifier.Yields fun id => [.identifier id] := by
  intro c id d h
  obtain ⟨⟨first, hpeek, halpha⟩, -, rfl⟩ := identifier_ok h
  obtain ⟨r, hr⟩ := Cursor.peek_eq_some.1 hpeek
  have hfirst : isNameChar first := by simp [isNameChar, Char.isAlphanum, halpha]
  refine every_leaf ?_ rfl
  change IsName (String.ofList (c.rest.takeWhile isNameChar)).toList
  rw [String.toList_ofList, hr, List.takeWhile_cons_of_pos hfirst]
  exact ⟨halpha, fun ch hch => List.mem_takeWhile_imp hch⟩

private theorem isDigits_of_digits {run : String} (h : digits c = .ok (run, d)) :
    IsDigits run.toList := by
  obtain ⟨hrun, hne, -⟩ := digits_ok h
  refine ⟨by simpa using hne, fun ch hch => ?_⟩
  rw [hrun, String.toList_ofList] at hch
  exact List.mem_takeWhile_imp hch

theorem number_yields : number.Yields fun n => [.number n] := by
  intro c n d h
  obtain ⟨sign, m₁, whole, m₂, hsign, hwhole, hrest⟩ := number_ok h
  have hsign : sign.toList = [] ∨ sign.toList = ['-'] := by
    obtain ⟨rfl, -⟩ | ⟨rfl, -⟩ := hsign
    · exact .inr rfl
    · exact .inl rfl
  refine every_leaf ?_ rfl
  obtain ⟨-, -, rfl⟩ | ⟨fraction, -, hfraction, rfl⟩ := hrest
  · exact ⟨sign.toList, whole.toList, [], by simp, hsign, isDigits_of_digits hwhole, .inl rfl⟩
  · exact ⟨sign.toList, whole.toList, '.' :: fraction.toList, by simp, hsign,
      isDigits_of_digits hwhole, .inr ⟨_, rfl, isDigits_of_digits hfraction⟩⟩

theorem stringLiteral_yields : stringLiteral.Yields fun s => [.string s] :=
  fun _ _ _ _ => every_leaf trivial rfl

theorem literal_yields : literal.Yields fun l => [Node.ofLiteral l] := by
  intro c l d h
  obtain ⟨n, -, hn, rfl⟩ | ⟨s, hs, rfl⟩ := literal_ok h
  · exact number_yields hn
  · exact stringLiteral_yields hs

theorem variantKey_yields : variantKey.Yields fun key => [Node.ofKey key] := by
  intro c key d h
  obtain ⟨n, -, hn, rfl⟩ | ⟨id, hid, rfl⟩ := variantKey_ok h
  · exact number_yields hn
  · exact identifier_yields hid

theorem accessor_yields : accessor.Yields fun attr => attr.toList.map .identifier := by
  intro c attr d h
  obtain ⟨-, rfl, -⟩ | ⟨id, -, hid, rfl⟩ := accessor_ok h
  · simp
  · exact identifier_yields hid

-- ---------------------------------------------------------------------------
-- Patterns
-- ---------------------------------------------------------------------------

section Pieces

variable {q : Placeable}

private theorem mem_of_mem_joinOnto {e : Element} {es : List Element}
    (h : .placeable q ∈ e.joinOnto es) : .placeable q ∈ e :: es := by
  unfold Element.joinOnto at h
  split at h
  · simp_all
  · exact h

private theorem mem_of_mem_join {es : List Element} (h : .placeable q ∈ Element.join es) :
    .placeable q ∈ es := by
  induction es with
  | nil => exact h
  | cons e es ih =>
    rcases List.mem_cons.1 (mem_of_mem_joinOnto h) with rfl | hes
    · exact List.mem_cons_self
    · exact List.mem_cons_of_mem _ (ih hes)

private theorem mem_of_mem_trimLast {es : List Element} (h : .placeable q ∈ Element.trimLast es) :
    .placeable q ∈ es := by
  fun_induction Element.trimLast es with
  | case1 => exact h
  | case2 => simp at h
  | case3 => simp at h
  | case4 e es _ ih =>
    rcases List.mem_cons.1 h with rfl | hes
    · exact List.mem_cons_self
    · exact List.mem_cons_of_mem _ (ih hes)

/-- Making elements of pieces adds no placeable. -/
theorem mem_of_mem_elements {pieces : List Piece} (h : .placeable q ∈ Piece.elements pieces) :
    .placeable q ∈ pieces := by
  obtain ⟨p, hp, hdedent⟩ := List.mem_filterMap.1 (mem_of_mem_join (mem_of_mem_trimLast h))
  cases p with
  | placeable q' =>
    obtain rfl : q' = q := by simpa [Piece.dedent] using hdedent
    exact hp
  | text t => simp [Piece.dedent] at hdedent
  | indent newlines spaces span =>
    rw [Piece.dedent] at hdedent
    split at hdedent <;> simp at hdedent

end Pieces

variable {placeable : Parser Placeable}

theorem pattern_yields (hplaceable : placeable.Yields fun p => [.placeable p]) {block : Bool}
    {q : Pattern} (hopens : c.OpensPattern block) (h : pattern placeable block c = .ok (q, d)) :
    (Node.pattern q).Every Node.WellFormed := by
  refine Node.every_iff.2 ⟨pattern_wellFormed hopens h, fun k hk => ?_⟩
  obtain ⟨opening, m, pieces, hopening, hpieces, rfl⟩ := pattern_ok h
  have hopening : ∀ r, .placeable r ∉ opening := by
    cases block with
    | true => simp [hopening.2]
    | false => simp [hopening.2]
  have hall := gather_forall
    (P := fun p => ∀ r, p = Piece.placeable r → (Node.placeable r).Every Node.WellFormed)
    (fun seen c p d _ hrun r hr => by
      obtain ⟨-, -, rfl⟩ | ⟨r', -, hr', rfl⟩ | ⟨-, -, -, -, rfl⟩ := piece_ok hrun
      · simp at hr
      · obtain rfl := Piece.placeable.inj hr
        exact hplaceable hr' _ List.mem_cons_self
      · simp at hr)
    (fun p hp r hr => absurd (hr ▸ hp) (hopening r)) hpieces
  obtain ⟨e, he, rfl⟩ := List.mem_map.1 hk
  cases e with
  | text t => exact every_leaf (n := .text t) trivial rfl _ List.mem_cons_self
  | placeable r => exact hall _ (mem_of_mem_elements he) r rfl

theorem pattern?_yields (hplaceable : placeable.Yields fun p => [.placeable p]) :
    (pattern? placeable).Yields fun p => p.toList.map .pattern := by
  intro c p d h
  cases p with
  | none => simp
  | some q =>
    obtain ⟨block, m, -, -, hopens, hq⟩ := pattern?_some h
    exact List.forall_mem_singleton.2 (pattern_yields hplaceable hopens hq)

theorem requiredPattern_yields (hplaceable : placeable.Yields fun p => [.placeable p]) :
    (requiredPattern placeable).Yields fun p => [.pattern p] :=
  fun _ _ _ h => pattern?_yields hplaceable (requiredPattern_ok h)

-- ---------------------------------------------------------------------------
-- Arguments and references
-- ---------------------------------------------------------------------------

variable {nested : Nested}

theorem namedArgument_yields (taken : List NamedArgument) {e : Inline}
    (he : (Node.inline e).Every Node.WellFormed) :
    (namedArgument taken e).Yields Node.ofNamed := by
  intro c a d h
  obtain ⟨id, span, value, rfl, -, hvalue, rfl⟩ := namedArgument_ok h
  have hid := (Node.every_iff.1 he).2 (.identifier id) List.mem_cons_self
  exact List.forall_mem_cons.2 ⟨hid, literal_yields hvalue⟩

theorem listedArgument_yields (hnested : nested.Yields) (seen : List ListedArgument) :
    (listedArgument nested seen).Yields fun a => Node.ofArgument a.argument := by
  intro c a d h
  change ∀ n ∈ Node.ofArgument a.argument, n.Every Node.WellFormed
  obtain ⟨e, m₁, m₂, he, -, ⟨b, -, hargument, hnamed⟩ | ⟨-, -, hargument, -⟩⟩ := listedArgument_ok h
  · rw [hargument]
    exact namedArgument_yields _ (hnested.inline he _ List.mem_cons_self) hnamed
  · rw [hargument]
    exact hnested.inline he

/-- A round of the list adds at most one named argument, and none whose name is taken. -/
private theorem listedArgument_named {seen : List ListedArgument} {a : ListedArgument}
    (h : listedArgument nested seen c = .ok (a, d)) :
    ∀ b, a.argument.named? = some b →
      ∀ k ∈ ListedArgument.named seen, k.name.name ≠ b.name.name := by
  intro b hb
  obtain ⟨e, m₁, m₂, -, -, ⟨b', -, hargument, hnamed⟩ | ⟨-, -, hargument, -⟩⟩ := listedArgument_ok h
  · rw [hargument] at hb
    obtain rfl := Option.some.inj hb
    obtain ⟨id, span, value, -, htaken, -, rfl⟩ := namedArgument_ok hnamed
    exact htaken
  · simp [hargument, Argument.named?] at hb

theorem arguments_distinct {args : Arguments} (h : arguments nested c = .ok (args, d)) :
    args.Distinct := by
  obtain ⟨listed, m, -, hlisted, -, -, rfl⟩ := arguments_ok h
  have hnodup := gather_induction
    (motive := fun seen _ => ((ListedArgument.named seen).map fun a => a.name.name).Nodup)
    (fun seen c a d hseen _ hrun => by
      have hnew := listedArgument_named hrun
      rw [ListedArgument.named, List.filterMap_cons]
      cases hnamed : a.argument.named? with
      | none => exact hseen
      | some b =>
        refine List.nodup_cons.2 ⟨fun hmem => ?_, hseen⟩
        obtain ⟨k, hk, hname⟩ := List.mem_map.1 hmem
        exact hnew b hnamed k hk hname)
    (by simp [ListedArgument.named]) hlisted
  rw [ListedArgument.named, List.filterMap_reverse, List.map_reverse, List.nodup_reverse] at hnodup
  exact hnodup

/-- The nodes of a call are those of its arguments, in the order of reading or not. -/
theorem exists_mem_ofArgument {listed : List ListedArgument} {n : Node}
    (hn : n ∈ Node.ofArguments
      ⟨listed.filterMap (·.argument.positional?), ListedArgument.named listed⟩) :
    ∃ a ∈ listed, n ∈ Node.ofArgument a.argument := by
  rcases List.mem_append.1 hn with hn | hn
  · obtain ⟨e, he, rfl⟩ := List.mem_map.1 hn
    obtain ⟨⟨argument, comma⟩, ha, hpositional⟩ := List.mem_filterMap.1 he
    cases argument with
    | positional e' =>
      obtain rfl := Option.some.inj hpositional
      exact ⟨_, ha, List.mem_cons_self⟩
    | named b => simp [Argument.positional?] at hpositional
  · obtain ⟨b, hb, hn⟩ := List.mem_flatMap.1 hn
    obtain ⟨⟨argument, comma⟩, ha, hnamed⟩ := List.mem_filterMap.1 hb
    cases argument with
    | positional e => simp [Argument.named?] at hnamed
    | named b' =>
      obtain rfl := Option.some.inj hnamed
      exact ⟨_, ha, hn⟩

theorem arguments_yields (hnested : nested.Yields) :
    (arguments nested).Yields Node.ofArguments := by
  intro c args d h n hn
  obtain ⟨listed, m, -, hlisted, -, -, rfl⟩ := arguments_ok h
  have hall := gather_forall
    (P := fun a : ListedArgument => ∀ n ∈ Node.ofArgument a.argument, n.Every Node.WellFormed)
    (fun seen _ _ _ _ hrun => listedArgument_yields hnested seen hrun) (by simp) hlisted
  obtain ⟨a, ha, hn⟩ := exists_mem_ofArgument hn
  exact hall a ha n hn

theorem variableRef_yields : variableRef.Yields fun e => [.inline e] := by
  intro c e d h
  obtain ⟨id, hid, rfl⟩ := variableRef_ok h
  exact List.forall_mem_singleton.2 (Node.every_iff.2 ⟨trivial, identifier_yields hid⟩)

theorem termRef_yields (hnested : nested.Yields) :
    (termRef nested).Yields fun e => [.inline e] := by
  intro c e d h
  obtain ⟨id, attr, args, m₁, m₂, hid, hattr, rfl, hargs⟩ := termRef_ok h
  have hid := identifier_yields hid
  have hattr := accessor_yields hattr
  have hargs : (∀ a ∈ args, a.Distinct) ∧
      ∀ n ∈ args.toList.flatMap Node.ofArguments, n.Every Node.WellFormed := by
    obtain ⟨-, rfl, -⟩ | ⟨a, ha, rfl⟩ := hargs
    · simp
    · exact ⟨by simpa using arguments_distinct ha, by simpa using arguments_yields hnested ha⟩
  refine List.forall_mem_singleton.2 (Node.every_iff.2 ⟨hargs.1, ?_⟩)
  simp only [Node.children, List.mem_append, or_imp, forall_and]
  exact ⟨List.forall_mem_cons.2 ⟨hid _ List.mem_cons_self, hattr⟩, hargs.2⟩

theorem callOrMessageRef_yields (hnested : nested.Yields) :
    (callOrMessageRef nested).Yields fun e => [.inline e] := by
  intro c e d h
  obtain ⟨id, m, hid, ⟨args, hcallee, hargs, rfl⟩ | ⟨attr, -, hattr, rfl⟩⟩ := callOrMessageRef_ok h
  all_goals have hid := identifier_yields hid _ List.mem_cons_self
  · have hcall : (Node.inline (.functionCall id args (c.spanTo d))).WellFormed :=
      ⟨isCalleeName_of_isCallee hcallee, arguments_distinct hargs⟩
    have hbelow := List.forall_mem_cons.2 ⟨hid, arguments_yields hnested hargs⟩
    exact List.forall_mem_singleton.2 (Node.every_iff.2 ⟨hcall, hbelow⟩)
  · have hbelow := List.forall_mem_cons.2 ⟨hid, accessor_yields hattr⟩
    exact List.forall_mem_singleton.2 (Node.every_iff.2 ⟨trivial, hbelow⟩)

-- ---------------------------------------------------------------------------
-- Selections and placeables
-- ---------------------------------------------------------------------------

theorem variant_yields (hnested : nested.Yields) (seen : List Variant) :
    (variant nested seen).Yields fun v => [.variant v] := by
  intro c v d h
  obtain ⟨isDefault, key, value, m₁, m₂, -, -, hkey, -, hvalue, rfl⟩ := variant_ok h
  have hkey := variantKey_yields hkey _ List.mem_cons_self
  have hvalue := requiredPattern_yields hnested.placeable hvalue
  exact List.forall_mem_singleton.2
    (Node.every_iff.2 ⟨trivial, List.forall_mem_cons.2 ⟨hkey, hvalue⟩⟩)

theorem variants_yields (hnested : nested.Yields) :
    (variants nested).Yields fun vs => vs.map .variant := by
  intro c vs d h
  obtain ⟨hvs, -⟩ := variants_ok h
  have hall := gather_forall (P := fun v => (Node.variant v).Every Node.WellFormed)
    (fun seen _ _ _ _ hrun => by
      obtain ⟨m, hv, -⟩ := variantLine_ok hrun
      exact variant_yields hnested seen hv _ List.mem_cons_self) (by simp) hvs
  exact List.forall_mem_map.2 hall

/-- A second default is refused where it stands, and a list without any at its end. -/
theorem variants_default {vs : List Variant} (h : variants nested c = .ok (vs, d)) :
    vs.countP (·.isDefault) = 1 := by
  obtain ⟨hvs, hdefault⟩ := variants_ok h
  have hmost := gather_induction (motive := fun seen _ => seen.countP (·.isDefault) ≤ 1)
    (fun seen c v d hseen _ hrun => by
      obtain ⟨m, hv, -⟩ := variantLine_ok hrun
      obtain ⟨isDefault, key, value, m₁, m₂, hmark, -, -, -, -, rfl⟩ := variant_ok hv
      obtain ⟨rfl, -, hnone, -⟩ | ⟨rfl, -, -⟩ := defaultMark_ok hmark
      · have hzero : seen.countP (·.isDefault) = 0 :=
          List.countP_eq_zero.2 fun v hv => by simp [hnone v hv]
        simp [hzero]
      · simpa using hseen)
    (by simp) hvs
  have hleast : 0 < vs.countP (·.isDefault) := List.countP_pos_iff.2 hdefault
  rw [List.countP_reverse] at hmost
  omega

theorem selects_of_selectorFault? {e : Inline} (h : e.selectorFault? = none) : e.Selects := by
  cases e with
  | literal | functionCall | variableRef => trivial
  | messageRef id attr span => cases attr <;> simp [Inline.selectorFault?] at h
  | termRef id attr args span =>
    cases attr with
    | none => simp [Inline.selectorFault?] at h
    | some attr => trivial
  | placeable p => simp [Inline.selectorFault?] at h

theorem expression_yields (hnested : nested.Yields) :
    (expression nested).Yields fun e => [Node.ofExpression e] := by
  intro c e d h
  obtain ⟨i, m, hi, ⟨s, -, hs, rfl⟩ | ⟨-, -, rfl, -⟩⟩ := expression_ok h
  · obtain ⟨vs, hfault, -, hvs, rfl⟩ := selection_ok hs
    obtain ⟨-, v, hv, -⟩ := variants_ok hvs
    have hselection : (Node.selection ⟨i, vs, c.spanTo d⟩).WellFormed :=
      ⟨List.ne_nil_of_mem hv, variants_default hvs, selects_of_selectorFault? hfault⟩
    have hbelow := List.forall_mem_cons.2
      ⟨hnested.inline hi _ List.mem_cons_self, variants_yields hnested hvs⟩
    exact List.forall_mem_singleton.2 (Node.every_iff.2 ⟨hselection, hbelow⟩)
  · exact hnested.inline hi

theorem placeableWith_yields (hnested : nested.Yields) :
    (placeableWith nested).Yields fun p => [.placeable p] := by
  intro c p d h
  obtain ⟨e, m, -, he, -, -, rfl⟩ := placeableWith_ok h
  refine List.forall_mem_singleton.2 (Node.every_iff.2 ⟨?_, expression_yields hnested he⟩)
  intro i hinline hterm
  obtain rfl : e = .inline i := hinline
  obtain ⟨i', m', -, ⟨s, -, -, hs⟩ | ⟨-, -, hi, hshown⟩⟩ := expression_ok he
  · simp at hs
  · obtain rfl := Expression.inline.inj hi
    cases i with
    | termRef id attr args span =>
      cases attr with
      | none => exact hterm
      | some attr => exact hshown id attr args span rfl
    | _ => exact hterm

theorem inlineWith_yields (hnested : nested.Yields) :
    (inlineWith nested).Yields fun e => [.inline e] := by
  intro c e d h
  obtain ⟨n, -, hn, rfl⟩ | ⟨p, hp, rfl⟩ | ⟨s, hs, rfl⟩ | ⟨-, h⟩ | ⟨-, h⟩ | h := inlineWith_ok h
  · exact List.forall_mem_singleton.2 (Node.every_iff.2 ⟨trivial, number_yields hn⟩)
  · exact List.forall_mem_singleton.2 (Node.every_iff.2 ⟨trivial, placeableWith_yields hnested hp⟩)
  · exact List.forall_mem_singleton.2 (Node.every_iff.2 ⟨trivial, stringLiteral_yields hs⟩)
  · exact variableRef_yields h
  · exact termRef_yields hnested h
  · exact callOrMessageRef_yields hnested h

private theorem nested_yields (c : Cursor) :
    (∀ e d, inline c = .ok (e, d) → (Node.inline e).Every Node.WellFormed) ∧
      ∀ p d, Parser.placeable c = .ok (p, d) → (Node.placeable p).Every Node.WellFormed := by
  have hwithin : ∀ c : Cursor, (∀ d : Cursor, d.rest.length < c.rest.length →
      (∀ e m, inline d = .ok (e, m) → (Node.inline e).Every Node.WellFormed) ∧
        ∀ p m, Parser.placeable d = .ok (p, m) → (Node.placeable p).Every Node.WellFormed) →
      (within c.rest.length).Yields := by
    intro c hshorter
    constructor
    · intro d e m h
      obtain ⟨hlt, h⟩ := within_inline_ok.1 h
      exact List.forall_mem_singleton.2 ((hshorter d hlt).1 e m h)
    · intro d p m h
      obtain ⟨hlt, h⟩ := within_placeable_ok.1 h
      exact List.forall_mem_singleton.2 ((hshorter d hlt).2 p m h)
  exact nested_induction
    (P := fun _ r => ∀ e d, r = .ok (e, d) → (Node.inline e).Every Node.WellFormed)
    (Q := fun _ r => ∀ p d, r = .ok (p, d) → (Node.placeable p).Every Node.WellFormed)
    (fun c hshorter _ _ h => inlineWith_yields (hwithin c hshorter) h _ List.mem_cons_self)
    (fun c hshorter _ _ h => placeableWith_yields (hwithin c hshorter) h _ List.mem_cons_self) c

theorem placeable_yields : Parser.Yields (fun p => [.placeable p]) Parser.placeable :=
  fun c p d h => List.forall_mem_singleton.2 ((nested_yields c).2 p d h)

-- ---------------------------------------------------------------------------
-- Entries
-- ---------------------------------------------------------------------------

theorem attributes_yields : attributes.Yields fun as => as.map .attribute := by
  intro c as d h
  have hall := gather_forall (P := fun a => (Node.attribute a).Every Node.WellFormed)
    (fun _ _ _ _ _ hrun => by
      obtain ⟨id, m, value, hid, -, hvalue, rfl⟩ := attributeLine_ok hrun
      have hid := identifier_yields hid _ List.mem_cons_self
      have hvalue := requiredPattern_yields placeable_yields hvalue
      exact Node.every_iff.2 ⟨trivial, List.forall_mem_cons.2 ⟨hid, hvalue⟩⟩) (by simp) h
  exact List.forall_mem_map.2 hall

theorem message_yields : message.Yields fun e => [.entry e] := by
  intro c e d h
  obtain ⟨id, m, value, m', attrs, hid, -, hvalue, hattrs, hfield, rfl⟩ := message_ok h
  have hid := identifier_yields hid _ List.mem_cons_self
  have hvalue := pattern?_yields placeable_yields hvalue
  have hattrs := attributes_yields hattrs
  refine List.forall_mem_singleton.2 (Node.every_iff.2 ⟨?_, ?_⟩)
  · by_cases hnone : value = none
    · exact .inr fun hnil => hfield ⟨hnone, hnil⟩
    · exact .inl (Option.isSome_iff_ne_none.2 hnone)
  · simp only [Node.children, Option.toList_none, List.map_nil, List.nil_append, List.mem_append,
      or_imp, forall_and]
    exact ⟨List.forall_mem_cons.2 ⟨hid, hvalue⟩, hattrs⟩

theorem term_yields : term.Yields fun e => [.entry e] := by
  intro c e d h
  obtain ⟨id, m, value, m', attrs, hid, -, hvalue, hattrs, rfl⟩ := term_ok h
  have hid := identifier_yields hid _ List.mem_cons_self
  have hvalue := pattern?_yields placeable_yields hvalue (.pattern value) List.mem_cons_self
  have hbelow := List.forall_mem_cons.2
    ⟨hid, List.forall_mem_cons.2 ⟨hvalue, attributes_yields hattrs⟩⟩
  exact List.forall_mem_singleton.2 (Node.every_iff.2 ⟨trivial, hbelow⟩)

theorem entry_yields : entry.Yields fun e => [.entry e] := by
  intro c e d h
  obtain ⟨-, h⟩ | ⟨-, h⟩ | h := entry_ok h
  · obtain ⟨level, first, m, lines, -, -, -, rfl⟩ := comment_ok h
    exact every_leaf trivial rfl
  · exact term_yields h
  · exact message_yields h

end Parser

-- ---------------------------------------------------------------------------
-- Resources
-- ---------------------------------------------------------------------------

section Attaching

variable {P : Node → Prop}

/-- A comment that is attached is one more node below its definition. -/
private theorem every_withComment (hnote : ∀ c, P (.note c))
    (hdefinition : ∀ c e e', Entry.withComment c e = some e' → P (.entry e) → P (.entry e'))
    {c : Comment} {e e' : Entry} (he : (Node.entry e).Every P) (h : e.withComment c = some e') :
    (Node.entry e').Every P := by
  have hnote : (Node.note c).Every P := Node.every_iff.2 ⟨hnote c, by simp [Node.children]⟩
  obtain ⟨hown, hbelow⟩ := Node.every_iff.1 he
  refine Node.every_iff.2 ⟨hdefinition c e e' h hown, ?_⟩
  cases e with
  | comment => simp [Entry.withComment] at h
  | message m =>
    obtain rfl := Option.some.inj h
    refine List.forall_mem_cons.2 ⟨hnote, fun k hk => hbelow k ?_⟩
    simp only [Node.children, List.append_assoc]
    exact List.mem_append_right _ hk
  | term t =>
    obtain rfl := Option.some.inj h
    refine List.forall_mem_cons.2 ⟨hnote, fun k hk => hbelow k ?_⟩
    exact List.mem_append_right _ hk

/-- What holds of all nodes that were read, a comment that is attached changing nothing, holds of all
nodes of the body. -/
theorem every_attach (hnote : ∀ c, P (.note c))
    (hdefinition : ∀ c e e', Entry.withComment c e = some e' → P (.entry e) → P (.entry e'))
    {bs : List Block} (h : ∀ b ∈ bs, (Node.entry b.entry).Every P) :
    ∀ e ∈ Block.attach bs, (Node.entry e).Every P := by
  fun_induction Block.attach bs with
  | case1 => simp
  | case2 c next rest e he ih =>
    obtain ⟨-, hnext, hrest⟩ := by simpa only [List.forall_mem_cons] using h
    exact List.forall_mem_cons.2 ⟨every_withComment hnote hdefinition hnext he, ih hrest⟩
  | case3 c next rest he ih =>
    obtain ⟨hc, hrest⟩ := List.forall_mem_cons.1 h
    exact List.forall_mem_cons.2 ⟨hc, ih hrest⟩
  | case4 b rest _ ih =>
    obtain ⟨hb, hrest⟩ := List.forall_mem_cons.1 h
    exact List.forall_mem_cons.2 ⟨hb, ih hrest⟩

end Attaching

private theorem wellFormed_withComment {c : Comment} {e e' : Entry} (h : e.withComment c = some e')
    (he : (Node.entry e).WellFormed) : (Node.entry e').WellFormed := by
  cases e with
  | comment => simp [Entry.withComment] at h
  | message | term =>
    obtain rfl := Option.some.inj h
    exact he

theorem Resource.parse_every {source : String} {r : Resource} (h : Resource.parse source = .ok r) :
    (Node.resource r).Every Node.WellFormed := by
  obtain ⟨blocks, d, hblocks, rfl⟩ := parse_ok h
  have hall := Parser.gather_forall
    (P := fun b : Block => (Node.entry b.entry).Every Node.WellFormed)
    (fun _ _ _ _ _ hrun => by
      obtain ⟨m, hentry, -⟩ := Parser.block_ok hrun
      exact Parser.entry_yields hentry _ List.mem_cons_self) (by simp) hblocks
  exact Node.every_iff.2 ⟨trivial, List.forall_mem_map.2
    (every_attach (fun _ => trivial) (fun _ _ _ => wellFormed_withComment) hall)⟩

/-- Every node of a resource that was read is well formed. -/
theorem Resource.parse_wellFormed {source : String} {r : Resource} {n : Node}
    (h : Resource.parse source = .ok r) (hn : (Node.resource r).Holds n) : n.WellFormed :=
  parse_every h n hn

/-- A selection, three levels below a message. -/
theorem Resource.parse_wellFormed_selection :
    ∃ (r : Resource) (s : Selection), Resource.parse "a = \x7b $b ->\n *[c] d\n\x7d\n" = .ok r ∧
      (Node.resource r).Holds (.selection s) ∧ (Node.selection s).WellFormed := by
  let default : Variant :=
    ⟨.name ⟨"c", ⟨15, 16⟩⟩, ⟨[.text ⟨"d", ⟨18, 19⟩⟩], ⟨18, 19⟩⟩, true, ⟨13, 19⟩⟩
  let select : Selection := ⟨.variableRef ⟨"b", ⟨7, 8⟩⟩ ⟨6, 8⟩, [default], ⟨6, 20⟩⟩
  let shown : Placeable := ⟨.select select, ⟨4, 21⟩⟩
  let value : Pattern := ⟨[.placeable shown], ⟨4, 21⟩⟩
  let entry : Entry := .message ⟨⟨"a", ⟨0, 1⟩⟩, some value, [], none, ⟨0, 21⟩⟩
  have hparse : Resource.parse "a = \x7b $b ->\n *[c] d\n\x7d\n" = .ok ⟨[entry], ⟨0, 22⟩⟩ := by cbv
  have hholds : (Node.resource ⟨[entry], ⟨0, 22⟩⟩).Holds (.selection select) :=
    .child (k := .entry entry) (by simp [Node.children]) <|
    .child (k := .pattern value) (by simp [Node.children, entry]) <|
    .child (k := .placeable shown) (by simp [Node.children, value, Node.ofElement]) <|
    .child List.mem_cons_self (.self _)
  exact ⟨_, select, hparse, hholds, Resource.parse_wellFormed hparse hholds⟩

end MessageLint
