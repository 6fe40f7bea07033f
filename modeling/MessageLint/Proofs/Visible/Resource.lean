-- SUMMARY: No pattern of a resource loses anything of the source that can be seen.
import MessageLint.Proofs.WellFormed.Resource
import MessageLint.Proofs.Visible.Pattern

/-!
# Visible text of a resource

Every pattern of a resource, at any depth, was read at some place of the source, so it preserves what
can be seen there. A parser that `Keeps` nodes goes from a place of the source to another one and gives
only nodes whose patterns do so; constructs are proved for any two parsers for what is nested in them.
-/

namespace MessageLint

/-- A pattern preserves what can be seen; other nodes owe nothing. -/
def Node.Preserves (source : String) : Node → Prop
  | .pattern p => p.Preserves source
  | _ => True

/-- A run has reached a place of the source, and all patterns in the nodes it gives preserve what can be
seen. -/
structure Kept (source : String) (d : Cursor) (ns : List Node) : Prop where
  stop : d.In source.toList
  every : ∀ n ∈ ns, n.Every (Node.Preserves source)

/-- Every run of `p` in the source keeps the nodes of its answer. -/
def Parser.Keeps (source : String) (nodes : α → List Node) (p : Parser α) : Prop :=
  ∀ ⦃c a d⦄, c.In source.toList → p c = .ok (a, d) → Kept source d (nodes a)

/-- Both parsers for what is nested in a construct keep their nodes, and placeables have their spans. -/
structure Nested.Keeps (source : String) (nested : Nested) : Prop where
  inline : nested.inline.Keeps source fun e => [.inline e]
  placeable : nested.placeable.Keeps source fun p => [.placeable p]
  spans : nested.placeable.Spans source

variable {source : String} {c d m : Cursor} {n : Node} {ns : List Node}

-- ---------------------------------------------------------------------------
-- Nodes
-- ---------------------------------------------------------------------------

/-- A node that is no pattern owes what the nodes below it owe. -/
theorem Kept.node (h : Kept source d n.children) (hn : n.Preserves source) : Kept source d [n] :=
  ⟨h.stop, List.forall_mem_singleton.2 (Node.every_iff.2 ⟨hn, h.every⟩)⟩

theorem Kept.append {ms : List Node} (h : Kept source m ns) (k : Kept source d ms) :
    Kept source d (ns ++ ms) :=
  ⟨k.stop, fun n hn => (List.mem_append.1 hn).elim (h.every n) (k.every n)⟩

theorem Kept.reads {text : List Char} (h : Kept source c ns) (hreads : c.Reads text d) :
    Kept source d ns :=
  ⟨hreads.in h.stop, h.every⟩

theorem Kept.leaf (hd : d.In source.toList) (hn : n.Preserves source) (hchildren : n.children = []) :
    Kept source d [n] :=
  .node (by rw [hchildren]; exact ⟨hd, List.forall_mem_nil _⟩) hn

namespace Parser

variable {nested : Nested} {placeable : Parser Placeable}

-- ---------------------------------------------------------------------------
-- Names and literals
-- ---------------------------------------------------------------------------

theorem identifier_keeps : identifier.Keeps source fun id => [.identifier id] :=
  fun _ _ _ hc h => .leaf (identifier_fills hc h).stop trivial rfl

theorem literal_keeps : literal.Keeps source fun l => [Node.ofLiteral l] := by
  intro c l d hc h
  have hd := (literal_fills hc h).stop
  cases l with
  | string s => exact .leaf hd trivial rfl
  | number n => exact .leaf hd trivial rfl

theorem variantKey_keeps : variantKey.Keeps source fun key => [Node.ofKey key] := by
  intro c key d hc h
  have hd := (variantKey_fills hc h).stop
  cases key with
  | name id => exact .leaf hd trivial rfl
  | number n => exact .leaf hd trivial rfl

theorem accessor_keeps : accessor.Keeps source fun attr => attr.toList.map .identifier := by
  intro c attr d hc h
  have hd := (accessor_fills hc h).stop
  cases attr with
  | none => exact ⟨hd, by simp⟩
  | some id => exact .leaf hd trivial rfl

-- ---------------------------------------------------------------------------
-- Patterns
-- ---------------------------------------------------------------------------

theorem pattern_keeps (hplaceable : placeable.Keeps source fun p => [.placeable p])
    (hspans : placeable.Spans source) {block : Bool} {q : Pattern} (hc : c.In source.toList)
    (hopens : c.OpensPattern block) (h : pattern placeable block c = .ok (q, d)) :
    Kept source d [.pattern q] := by
  have hpreserves := pattern_preserves hspans hc hopens h
  obtain ⟨opening, m, pieces, hopening, hpieces, rfl⟩ := pattern_ok h
  obtain ⟨text, hreads⟩ := hopening.reads
  have hstart : ∀ r, .placeable r ∉ opening := fun r hr => by
    obtain ⟨spaces, span, hindent⟩ := hopening.isOpening _ hr
    cases hindent
  have hall := gather_induction
    (motive := fun seen d => d.In source.toList ∧
      ∀ r, .placeable r ∈ seen → (Node.placeable r).Every (Node.Preserves source))
    (fun seen c p d ⟨hc, hseen⟩ hmore hrun => by
      obtain ⟨text, -, hreads, -⟩ := piece_stands hspans hc hmore hrun
      refine ⟨hreads.in hc, fun r hr => ?_⟩
      rcases List.mem_cons.1 hr with rfl | hr
      · obtain ⟨-, -, hp⟩ | ⟨q, -, hq, hp⟩ | ⟨-, -, -, -, hp⟩ := piece_ok hrun
        · cases hp
        · obtain rfl := Piece.placeable.inj hp
          exact (hplaceable hc hq).every _ List.mem_cons_self
        · cases hp
      · exact hseen r hr)
    ⟨hreads.in hc, fun r hr => absurd hr (hstart r)⟩ hpieces
  refine .node ⟨hall.1, fun k hk => ?_⟩ hpreserves
  obtain ⟨e, he, rfl⟩ := List.mem_map.1 hk
  cases e with
  | text t => exact Node.every_iff.2 ⟨trivial, by simp [Node.ofElement, Node.children]⟩
  | placeable r => exact hall.2 r (List.mem_reverse.2 (mem_of_mem_elements he))

theorem pattern?_keeps (hplaceable : placeable.Keeps source fun p => [.placeable p])
    (hspans : placeable.Spans source) :
    (pattern? placeable).Keeps source fun p => p.toList.map .pattern := by
  intro c p d hc h
  cases p with
  | none =>
    obtain ⟨-, rfl, -⟩ | ⟨q, -, -, -, hnone⟩ | ⟨q, -, -, -, hnone⟩ := pattern?_ok h
    · exact ⟨hc, by simp⟩
    · cases hnone
    · cases hnone
  | some q =>
    obtain ⟨block, m, text, hreads, hopens, hq⟩ := pattern?_some h
    exact pattern_keeps hplaceable hspans (hreads.in hc) hopens hq

theorem requiredPattern_keeps (hplaceable : placeable.Keeps source fun p => [.placeable p])
    (hspans : placeable.Spans source) :
    (requiredPattern placeable).Keeps source fun p => [.pattern p] :=
  fun _ _ _ hc h => pattern?_keeps hplaceable hspans hc (requiredPattern_ok h)

-- ---------------------------------------------------------------------------
-- Arguments and references
-- ---------------------------------------------------------------------------

theorem namedArgument_keeps (taken : List NamedArgument) (e : Inline) :
    (namedArgument taken e).Keeps source Node.ofNamed := by
  intro c a d hc h
  obtain ⟨id, span, value, -, -, hvalue, rfl⟩ := namedArgument_ok h
  obtain ⟨colon, hcolon⟩ := c.reads_next
  have hvalue := literal_keeps ((hcolon.trans (c.next.reads_skipBlank)).in hc) hvalue
  exact (Kept.leaf (n := .identifier id) hc trivial rfl).append hvalue

theorem listedArgument_keeps (hnested : nested.Keeps source) (seen : List ListedArgument) :
    (listedArgument nested seen).Keeps source fun a => Node.ofArgument a.argument := by
  intro c a d hc h
  change Kept source d (Node.ofArgument a.argument)
  obtain ⟨e, m₁, m₂, he, hcomma, hargument⟩ := listedArgument_ok h
  have he := (hnested.inline hc he).reads (m₁.reads_skipBlank)
  have hkept : Kept source m₂ (Node.ofArgument a.argument) := by
    obtain ⟨b, -, hargument, hb⟩ | ⟨-, -, hargument, rfl⟩ := hargument
    · rw [hargument]
      exact namedArgument_keeps _ _ he.stop hb
    · rw [hargument]
      exact he
  have hkept := hkept.reads (m₂.reads_skipBlank)
  obtain ⟨-, hpeek, rfl⟩ | ⟨-, -, rfl⟩ := hcomma
  · exact (hkept.reads (Cursor.reads_next_of_peek hpeek)).reads (Cursor.reads_skipBlank _)
  · exact hkept

/-- What every round of a loop keeps, the loop keeps. -/
theorem gather_keeps {f : α → List Node} {more : List α → Cursor → Bool} {step : List α → Parser α}
    {as : List α} (hstep : ∀ seen, (step seen).Keeps source f) (hc : c.In source.toList)
    (h : gather more step [] c = .ok (as, d)) :
    d.In source.toList ∧ ∀ a ∈ as, ∀ n ∈ f a, n.Every (Node.Preserves source) := by
  have hall := gather_induction
    (motive := fun seen d => d.In source.toList ∧ ∀ a ∈ seen, ∀ n ∈ f a, n.Every (Node.Preserves source))
    (fun seen c a d ⟨hc, hseen⟩ _ hrun =>
      let hkept := hstep seen hc hrun
      ⟨hkept.stop, List.forall_mem_cons.2 ⟨hkept.every, hseen⟩⟩)
    ⟨hc, List.forall_mem_nil _⟩ h
  simpa using hall

theorem arguments_keeps (hnested : nested.Keeps source) :
    (arguments nested).Keeps source Node.ofArguments := by
  intro c args d hc h
  obtain ⟨listed, m, hopen, hlisted, hclose, rfl, rfl⟩ := arguments_ok h
  have hstart := (Cursor.reads_next_of_peek hopen).trans (c.next.reads_skipBlank)
  obtain ⟨hm, hall⟩ := gather_keeps (listedArgument_keeps hnested) (hstart.in hc) hlisted
  refine ⟨(Cursor.reads_next_of_peek hclose).in hm, fun n hn => ?_⟩
  obtain ⟨a, ha, hn⟩ := exists_mem_ofArgument hn
  exact hall a ha n hn

theorem variableRef_keeps : variableRef.Keeps source fun e => [.inline e] := by
  intro c e d hc h
  obtain ⟨id, hid, rfl⟩ := variableRef_ok h
  obtain ⟨dollar, hdollar⟩ := c.reads_next
  exact (identifier_keeps (hdollar.in hc) hid).node trivial

theorem termRef_keeps (hnested : nested.Keeps source) :
    (termRef nested).Keeps source fun e => [.inline e] := by
  intro c e d hc h
  obtain ⟨id, attr, args, m₁, m₂, hid, hattr, rfl, hargs⟩ := termRef_ok h
  obtain ⟨dash, hdash⟩ := c.reads_next
  have hid := identifier_keeps (hdash.in hc) hid
  have hname := hid.append (accessor_keeps hid.stop hattr)
  obtain ⟨-, rfl, rfl⟩ | ⟨a, hargs, rfl⟩ := hargs
  · exact Kept.node (by simpa [Node.children] using hname) trivial
  · have hargs := arguments_keeps hnested ((m₂.reads_skipBlank).in hname.stop) hargs
    exact Kept.node (by simpa [Node.children] using hname.append hargs) trivial

theorem callOrMessageRef_keeps (hnested : nested.Keeps source) :
    (callOrMessageRef nested).Keeps source fun e => [.inline e] := by
  intro c e d hc h
  obtain ⟨id, m, hid, ⟨args, -, hargs, rfl⟩ | ⟨attr, -, hattr, rfl⟩⟩ := callOrMessageRef_ok h
  all_goals have hid := identifier_keeps hc hid
  · have hargs := arguments_keeps hnested ((m.reads_skipBlank).in hid.stop) hargs
    exact (hid.append hargs).node trivial
  · exact (hid.append (accessor_keeps hid.stop hattr)).node trivial

-- ---------------------------------------------------------------------------
-- Selections and placeables
-- ---------------------------------------------------------------------------

theorem variant_keeps (hnested : nested.Keeps source) (seen : List Variant) :
    (variant nested seen).Keeps source fun v => [.variant v] := by
  intro c v d hc h
  obtain ⟨isDefault, key, value, m₁, m₂, hdefault, hopen, hkey, hclose, hvalue, rfl⟩ := variant_ok h
  have hstart : m₁.In source.toList := by
    obtain ⟨-, hstar, -, rfl⟩ | ⟨-, -, rfl⟩ := defaultMark_ok hdefault
    · exact (Cursor.reads_next_of_peek hstar).in hc
    · exact hc
  have hopen := (Cursor.reads_next_of_peek hopen).trans (m₁.next.reads_skipBlank)
  have hclose := (m₂.reads_skipBlank).trans (Cursor.reads_next_of_peek hclose)
  have hkey := (variantKey_keeps (hopen.in hstart) hkey).reads hclose
  have hvalue := requiredPattern_keeps hnested.placeable hnested.spans hkey.stop hvalue
  exact (hkey.append hvalue).node trivial

theorem variantLine_keeps (hnested : nested.Keeps source) (seen : List Variant) :
    (variantLine nested seen).Keeps source fun v => [.variant v] := by
  intro c v d hc h
  obtain ⟨m, hv, -, rfl⟩ := variantLine_ok h
  obtain ⟨lineEnd, hend⟩ := m.reads_next
  exact (variant_keeps hnested seen hc hv).reads (hend.trans (m.next.reads_skipBlank))

theorem variants_keeps (hnested : nested.Keeps source) :
    (variants nested).Keeps source fun vs => vs.map .variant := by
  intro c vs d hc h
  obtain ⟨hvs, -⟩ := variants_ok h
  obtain ⟨hd, hall⟩ := gather_keeps (variantLine_keeps hnested) ((c.reads_skipBlank).in hc) hvs
  exact ⟨hd, List.forall_mem_map.2 fun v hv => hall v hv _ List.mem_cons_self⟩

theorem expression_keeps (hnested : nested.Keeps source) :
    (expression nested).Keeps source fun e => [Node.ofExpression e] := by
  intro c e d hc h
  obtain ⟨i, m, hi, hrest⟩ := expression_ok h
  have hi := (hnested.inline hc hi).reads (m.reads_skipBlank)
  obtain ⟨s, -, hs, rfl⟩ | ⟨-, rfl, rfl, -⟩ := hrest
  · obtain ⟨vs, -, -, hvs, rfl⟩ := selection_ok hs
    obtain ⟨arrow, harrow⟩ := m.skipBlank.reads_advance 2
    have hspaces := harrow.trans ((m.skipBlank.advance 2).reads_skipSpaces)
    obtain ⟨lineEnd, hend⟩ := (m.skipBlank.advance 2).skipSpaces.reads_next
    have hvs := variants_keeps hnested ((hspaces.trans hend).in hi.stop) hvs
    exact (hi.append hvs).node trivial
  · exact hi

theorem placeableWith_keeps (hnested : nested.Keeps source) :
    (placeableWith nested).Keeps source fun p => [.placeable p] := by
  intro c p d hc h
  obtain ⟨e, m, hopen, he, hclose, rfl, rfl⟩ := placeableWith_ok h
  have hopen := (Cursor.reads_next_of_peek hopen).trans (c.next.reads_skipBlank)
  have he := expression_keeps hnested (hopen.in hc) he
  exact (he.reads (Cursor.reads_next_of_peek hclose)).node trivial

theorem inlineWith_keeps (hnested : nested.Keeps source) :
    (inlineWith nested).Keeps source fun e => [.inline e] := by
  intro c e d hc h
  obtain ⟨n, -, hn, rfl⟩ | ⟨p, hp, rfl⟩ | ⟨s, hs, rfl⟩ | ⟨-, h⟩ | ⟨-, h⟩ | h := inlineWith_ok h
  · exact (Kept.leaf (n := .number n) (number_fills hc hn).stop trivial rfl).node trivial
  · exact (placeableWith_keeps hnested hc hp).node trivial
  · exact (Kept.leaf (n := .string s) (stringLiteral_fills hc hs).stop trivial rfl).node trivial
  · exact variableRef_keeps hc h
  · exact termRef_keeps hnested hc h
  · exact callOrMessageRef_keeps hnested hc h

/-- A placeable has the span of what was read, from its first brace to its last. -/
theorem placeable_spans : Parser.Spans source Parser.placeable := by
  intro c q d hc h
  have hfilled := placeable_fills hc h
  rw [placeable_eq] at h
  obtain ⟨e, m, -, -, -, -, rfl⟩ := placeableWith_ok h
  obtain ⟨text, hreads⟩ := hfilled.reads
  obtain ⟨shown, hslice, inner, rfl⟩ := (hfilled.row.sound List.mem_cons_self).placed.shows
  obtain rfl := Option.some.inj ((hreads.slice? hc).symm.trans hslice)
  exact ⟨⟨_, by simp, hreads⟩, rfl⟩

private theorem nested_keeps (c : Cursor) :
    (∀ e d, c.In source.toList → inline c = .ok (e, d) → Kept source d [.inline e]) ∧
      ∀ p d, c.In source.toList → Parser.placeable c = .ok (p, d) → Kept source d [.placeable p] := by
  have hwithin : ∀ c : Cursor, (∀ d : Cursor, d.rest.length < c.rest.length →
      (∀ e m, d.In source.toList → inline d = .ok (e, m) → Kept source m [.inline e]) ∧
        ∀ p m, d.In source.toList → Parser.placeable d = .ok (p, m) → Kept source m [.placeable p]) →
      (within c.rest.length).Keeps source :=
    fun c hshorter =>
      ⟨fun d e m hd h => let ⟨hlt, h⟩ := within_inline_ok.1 h; (hshorter d hlt).1 e m hd h,
        fun d p m hd h => let ⟨hlt, h⟩ := within_placeable_ok.1 h; (hshorter d hlt).2 p m hd h,
        fun _ _ _ hd h => placeable_spans hd (within_placeable_ok.1 h).2⟩
  exact nested_induction
    (P := fun c r => ∀ e d, c.In source.toList → r = .ok (e, d) → Kept source d [.inline e])
    (Q := fun c r => ∀ p d, c.In source.toList → r = .ok (p, d) → Kept source d [.placeable p])
    (fun c hshorter _ _ hc h => inlineWith_keeps (hwithin c hshorter) hc h)
    (fun c hshorter _ _ hc h => placeableWith_keeps (hwithin c hshorter) hc h) c

theorem placeable_keeps : Parser.Keeps source (fun p => [.placeable p]) Parser.placeable :=
  fun c p d => (nested_keeps c).2 p d

-- ---------------------------------------------------------------------------
-- Entries
-- ---------------------------------------------------------------------------

theorem attributeLine_keeps : attributeLine.Keeps source fun a => [.attribute a] := by
  intro c a d hc h
  obtain ⟨id, m, value, hid, hequals, hvalue, rfl⟩ := attributeLine_ok h
  obtain ⟨dot, hdot⟩ := c.skipBlank.reads_next
  have hid := identifier_keeps (((c.reads_skipBlank).trans hdot).in hc) hid
  have hequals := (m.reads_skipSpaces).trans (Cursor.reads_next_of_peek hequals)
  have hvalue := requiredPattern_keeps placeable_keeps placeable_spans (hequals.in hid.stop) hvalue
  exact (hid.append hvalue).node trivial

theorem attributes_keeps : attributes.Keeps source fun as => as.map .attribute := by
  intro c as d hc h
  obtain ⟨hd, hall⟩ := gather_keeps (fun _ => attributeLine_keeps) hc h
  exact ⟨hd, List.forall_mem_map.2 fun a ha => hall a ha _ List.mem_cons_self⟩

theorem message_keeps : message.Keeps source fun e => [.entry e] := by
  intro c e d hc h
  obtain ⟨id, m, value, m', attrs, hid, hequals, hvalue, hattrs, -, rfl⟩ := message_ok h
  have hid := identifier_keeps hc hid
  have hequals := (m.reads_skipSpaces).trans (Cursor.reads_next_of_peek hequals)
  have hvalue := pattern?_keeps placeable_keeps placeable_spans (hequals.in hid.stop) hvalue
  exact Kept.node ((hid.append hvalue).append (attributes_keeps hvalue.stop hattrs)) trivial

theorem term_keeps : term.Keeps source fun e => [.entry e] := by
  intro c e d hc h
  obtain ⟨id, m, value, m', attrs, hid, hequals, hvalue, hattrs, rfl⟩ := term_ok h
  obtain ⟨dash, hdash⟩ := c.reads_next
  have hid := identifier_keeps (hdash.in hc) hid
  have hequals := (m.reads_skipSpaces).trans (Cursor.reads_next_of_peek hequals)
  have hvalue := pattern?_keeps placeable_keeps placeable_spans (hequals.in hid.stop) hvalue
  exact Kept.node ((hid.append hvalue).append (attributes_keeps hvalue.stop hattrs)) trivial

theorem entry_keeps : entry.Keeps source fun e => [.entry e] := by
  intro c e d hc h
  have hd := (entry_fills hc h).stop
  obtain ⟨-, h⟩ | ⟨-, h⟩ | h := entry_ok h
  · obtain ⟨level, first, m, lines, -, -, -, rfl⟩ := comment_ok h
    exact .leaf hd trivial rfl
  · exact term_keeps hc h
  · exact message_keeps hc h

theorem block_keeps : block.Keeps source fun b => [.entry b.entry] := by
  intro c b d hc h
  obtain ⟨m, hentry, -, rfl, -⟩ := block_ok h
  obtain ⟨lineEnd, hend⟩ := m.reads_next
  obtain ⟨lines, hlines⟩ := m.next.skipBlankLines_ends
  exact (entry_keeps hc hentry).reads (hend.trans hlines.reads)

end Parser

-- ---------------------------------------------------------------------------
-- Resources
-- ---------------------------------------------------------------------------

/-- No pattern loses anything of its source that can be seen: outside its elements there are only
blanks, and its texts have the ink and the line ends of what they were read from. -/
theorem Resource.parse_preserves {r : Resource} {p : Pattern} (h : Resource.parse source = .ok r)
    (hp : (Node.resource r).Holds (.pattern p)) : p.Preserves source := by
  obtain ⟨blocks, d, hblocks, rfl⟩ := parse_ok h
  obtain ⟨lines, hlines⟩ := (Cursor.ofString source).skipBlankLines_ends
  obtain ⟨-, hall⟩ := Parser.gather_keeps (fun _ => Parser.block_keeps)
    (hlines.reads.in (Cursor.in_ofString source)) hblocks
  have hbody := every_attach (fun _ => trivial) (fun _ _ _ _ _ => trivial)
    fun b hb => hall b hb _ List.mem_cons_self
  have hevery : (Node.resource ⟨Block.attach blocks, ⟨0, d.offset⟩⟩).Every (Node.Preserves source) :=
    Node.every_iff.2 ⟨trivial, List.forall_mem_map.2 hbody⟩
  exact hevery _ hp

/-- The block of an attribute, whose text spans three lines of the source and has lost two spaces of the
last one. -/
theorem Resource.parse_preserves_attribute :
    ∃ (r : Resource) (p : Pattern), Resource.parse "a =\n .b =\n  c\n\n   \x7b$d\x7d\n" = .ok r ∧
      (Node.resource r).Holds (.pattern p) ∧ p.Preserves "a =\n .b =\n  c\n\n   \x7b$d\x7d\n" := by
  let shown : Placeable := ⟨.inline (.variableRef ⟨"d", ⟨20, 21⟩⟩ ⟨19, 21⟩), ⟨18, 22⟩⟩
  let block : Pattern := ⟨[.text ⟨"c\n\n ", ⟨12, 18⟩⟩, .placeable shown], ⟨10, 22⟩⟩
  let line : Attribute := ⟨⟨"b", ⟨6, 7⟩⟩, block, ⟨5, 22⟩⟩
  let entry : Entry := .message ⟨⟨"a", ⟨0, 1⟩⟩, none, [line], none, ⟨0, 22⟩⟩
  have hparse : Resource.parse "a =\n .b =\n  c\n\n   \x7b$d\x7d\n" = .ok ⟨[entry], ⟨0, 23⟩⟩ := by cbv
  have hholds : (Node.resource ⟨[entry], ⟨0, 23⟩⟩).Holds (.pattern block) :=
    .child (k := .entry entry) (by simp [Node.children]) <|
    .child (k := .attribute line) (by simp [Node.children, entry]) <|
    .child (by simp [Node.children, line]) (.self _)
  exact ⟨_, block, hparse, hholds, Resource.parse_preserves hparse hholds⟩

end MessageLint
