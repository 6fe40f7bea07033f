-- SUMMARY: Resources with every span replaced.
import Mathlib
import MessageLint.Grammar.Entry

/-!
# Changing spans

`respan f` applies `f` to every span of a tree, at any depth, and changes nothing else. With
`Span.shift` for `f` it moves a tree to another place; with a constant it forgets where the tree was
read. Trees and what the parsers gather on the way to them all have it.
-/

namespace MessageLint

/-- The span `n` bytes further on. -/
def Span.shift (n : Nat) (s : Span) : Span := ⟨s.start + n, s.stop + n⟩

-- ---------------------------------------------------------------------------
-- Leaves
-- ---------------------------------------------------------------------------

def Identifier.respan (f : Span → Span) (id : Identifier) : Identifier :=
  { id with span := f id.span }

def NumberLiteral.respan (f : Span → Span) (n : NumberLiteral) : NumberLiteral :=
  { n with span := f n.span }

def StringLiteral.respan (f : Span → Span) (s : StringLiteral) : StringLiteral :=
  { s with span := f s.span }

def Literal.respan (f : Span → Span) : Literal → Literal
  | .string s => .string (s.respan f)
  | .number n => .number (n.respan f)

def NamedArgument.respan (f : Span → Span) (a : NamedArgument) : NamedArgument :=
  ⟨a.name.respan f, a.value.respan f⟩

def VariantKey.respan (f : Span → Span) : VariantKey → VariantKey
  | .name id => .name (id.respan f)
  | .number n => .number (n.respan f)

def TextElement.respan (f : Span → Span) (t : TextElement) : TextElement :=
  { t with span := f t.span }

-- ---------------------------------------------------------------------------
-- Patterns and expressions
-- ---------------------------------------------------------------------------

mutual

def Pattern.respan (f : Span → Span) : Pattern → Pattern
  | ⟨elements, span⟩ => ⟨Element.respanAll f elements, f span⟩

def Element.respanAll (f : Span → Span) : List Element → List Element
  | [] => []
  | e :: es => e.respan f :: Element.respanAll f es

def Element.respan (f : Span → Span) : Element → Element
  | .text t => .text (t.respan f)
  | .placeable p => .placeable (p.respan f)

def Placeable.respan (f : Span → Span) : Placeable → Placeable
  | ⟨expression, span⟩ => ⟨expression.respan f, f span⟩

def Expression.respan (f : Span → Span) : Expression → Expression
  | .inline e => .inline (e.respan f)
  | .select s => .select (s.respan f)

def Selection.respan (f : Span → Span) : Selection → Selection
  | ⟨selector, variants, span⟩ => ⟨selector.respan f, Variant.respanAll f variants, f span⟩

def Variant.respanAll (f : Span → Span) : List Variant → List Variant
  | [] => []
  | v :: vs => v.respan f :: Variant.respanAll f vs

def Variant.respan (f : Span → Span) : Variant → Variant
  | ⟨key, value, isDefault, span⟩ => ⟨key.respan f, value.respan f, isDefault, f span⟩

def Inline.respan (f : Span → Span) : Inline → Inline
  | .literal l => .literal (l.respan f)
  | .functionCall callee arguments span =>
    .functionCall (callee.respan f) (arguments.respan f) (f span)
  | .messageRef id attr span => .messageRef (id.respan f) (attr.map (·.respan f)) (f span)
  | .termRef id attr none span => .termRef (id.respan f) (attr.map (·.respan f)) none (f span)
  | .termRef id attr (some args) span =>
    .termRef (id.respan f) (attr.map (·.respan f)) (some (args.respan f)) (f span)
  | .variableRef id span => .variableRef (id.respan f) (f span)
  | .placeable p => .placeable (p.respan f)

def Inline.respanAll (f : Span → Span) : List Inline → List Inline
  | [] => []
  | e :: es => e.respan f :: Inline.respanAll f es

def Arguments.respan (f : Span → Span) : Arguments → Arguments
  | ⟨positional, named⟩ => ⟨Inline.respanAll f positional, named.map (·.respan f)⟩

end

-- ---------------------------------------------------------------------------
-- Entries
-- ---------------------------------------------------------------------------

def Attribute.respan (f : Span → Span) (a : Attribute) : Attribute :=
  ⟨a.id.respan f, a.value.respan f, f a.span⟩

def Comment.respan (f : Span → Span) (c : Comment) : Comment := { c with span := f c.span }

def Message.respan (f : Span → Span) (m : Message) : Message :=
  ⟨m.id.respan f, m.value.map (·.respan f), m.attributes.map (·.respan f),
    m.comment.map (·.respan f), f m.span⟩

def Term.respan (f : Span → Span) (t : Term) : Term :=
  ⟨t.id.respan f, t.value.respan f, t.attributes.map (·.respan f), t.comment.map (·.respan f),
    f t.span⟩

def Entry.respan (f : Span → Span) : Entry → Entry
  | .message m => .message (m.respan f)
  | .term t => .term (t.respan f)
  | .comment level c => .comment level (c.respan f)

def Resource.respan (f : Span → Span) (r : Resource) : Resource :=
  ⟨r.body.map (·.respan f), f r.span⟩

-- ---------------------------------------------------------------------------
-- What is gathered on the way
-- ---------------------------------------------------------------------------

def Piece.respan (f : Span → Span) : Piece → Piece
  | .indent newlines spaces span => .indent newlines spaces (f span)
  | .text t => .text (t.respan f)
  | .placeable p => .placeable (p.respan f)

def Argument.respan (f : Span → Span) : Argument → Argument
  | .positional e => .positional (e.respan f)
  | .named a => .named (a.respan f)

def ListedArgument.respan (f : Span → Span) (a : ListedArgument) : ListedArgument :=
  ⟨a.argument.respan f, a.comma⟩

def Block.respan (f : Span → Span) (b : Block) : Block := ⟨b.entry.respan f, b.touchesNext⟩

-- ---------------------------------------------------------------------------
-- Laws
-- ---------------------------------------------------------------------------

section Laws

variable (f : Span → Span)

@[simp] theorem Element.respanAll_eq_map (es : List Element) :
    Element.respanAll f es = es.map (·.respan f) := by
  induction es with
  | nil => rfl
  | cons e es ih => rw [Element.respanAll, ih, List.map_cons]

@[simp] theorem Variant.respanAll_eq_map (vs : List Variant) :
    Variant.respanAll f vs = vs.map (·.respan f) := by
  induction vs with
  | nil => rfl
  | cons v vs ih => rw [Variant.respanAll, ih, List.map_cons]

@[simp] theorem Inline.respanAll_eq_map (es : List Inline) :
    Inline.respanAll f es = es.map (·.respan f) := by
  induction es with
  | nil => rfl
  | cons e es ih => rw [Inline.respanAll, ih, List.map_cons]

@[simp] theorem Inline.respan_termRef (id : Identifier) (attr : Option Identifier)
    (args : Option Arguments) (span : Span) :
    (Inline.termRef id attr args span).respan f =
      .termRef (id.respan f) (attr.map (·.respan f)) (args.map (·.respan f)) (f span) := by
  cases args <;> rfl

@[simp] theorem Inline.span_respan (e : Inline) : (e.respan f).span = f e.span := by
  cases e with
  | literal l => cases l <;> rfl
  | placeable p => cases p; rfl
  | termRef id attr args span => rw [Inline.respan_termRef]; rfl
  | functionCall | messageRef | variableRef => rfl

@[simp] theorem Inline.selectorFault?_respan (e : Inline) :
    (e.respan f).selectorFault? = e.selectorFault? := by
  cases e with
  | termRef id attr args span => cases attr <;> simp [Inline.selectorFault?]
  | messageRef id attr span => cases attr <;> rfl
  | literal | functionCall | variableRef | placeable => rfl

@[simp] theorem Variant.isDefault_respan (v : Variant) : (v.respan f).isDefault = v.isDefault := by
  cases v; rfl

theorem Piece.commonIndent_respan (pieces : List Piece) :
    commonIndent (pieces.map (·.respan f)) = commonIndent pieces := by
  have hspaces : ∀ p : Piece, (p.respan f).spaces? = p.spaces? := fun p => by cases p <;> rfl
  simp [commonIndent, List.filterMap_map, hspaces]

theorem Piece.dedent_respan (common : Nat) (p : Piece) :
    (p.respan f).dedent common = (p.dedent common).map (·.respan f) := by
  cases p with
  | indent newlines spaces span =>
    simp only [respan, dedent]
    split <;> rfl
  | text | placeable => rfl

theorem ListedArgument.named_respan (seen : List ListedArgument) :
    named (seen.map (·.respan f)) =
      (named seen).map (·.respan f) := by
  have hnamed : ∀ a : ListedArgument,
      (a.respan f).argument.named? = a.argument.named?.map (·.respan f) := by
    rintro ⟨argument, comma⟩
    cases argument <;> rfl
  simp [named, List.filterMap_map, List.map_filterMap, hnamed]

theorem ListedArgument.positional_respan (seen : List ListedArgument) :
    (seen.map (·.respan f)).filterMap (·.argument.positional?) =
      (seen.filterMap (·.argument.positional?)).map (·.respan f) := by
  have hpositional : ∀ a : ListedArgument,
      (a.respan f).argument.positional? = a.argument.positional?.map (·.respan f) := by
    rintro ⟨argument, comma⟩
    cases argument <;> rfl
  simp [List.filterMap_map, List.map_filterMap, hpositional]

variable {f}

/-- Joining text joins spans, so a change of spans must go along with that. -/
theorem Element.join_respan (hf : ∀ s t : Span, f (s.extend t) = (f s).extend (f t))
    (es : List Element) : join (es.map (·.respan f)) = (join es).map (·.respan f) := by
  have hjoin : ∀ (e : Element) (es : List Element),
      (e.respan f).joinOnto (es.map (·.respan f)) = (e.joinOnto es).map (·.respan f) := by
    intro e es
    cases e with
    | placeable => rfl
    | text a =>
      cases es with
      | nil => rfl
      | cons e es =>
        cases e with
        | placeable => rfl
        | text b => simp [respan, joinOnto, TextElement.respan, hf]
  induction es with
  | nil => rfl
  | cons e es ih =>
    change (e.respan f).joinOnto (join (es.map (·.respan f))) = (e.joinOnto (join es)).map (·.respan f)
    rw [ih, hjoin]

theorem Element.trimLast_respan (es : List Element) :
    trimLast (es.map (·.respan f)) = (trimLast es).map (·.respan f) := by
  induction es with
  | nil => rfl
  | cons e es ih =>
    cases es with
    | nil =>
      cases e with
      | placeable p => rfl
      | text t =>
        change (if (trimEnd t.value).isEmpty then [] else [text ⟨trimEnd t.value, f t.span⟩]) =
          (if (trimEnd t.value).isEmpty then [] else [text ⟨trimEnd t.value, t.span⟩]).map _
        split <;> rfl
    | cons e' es =>
      cases e with
      | text t => exact congrArg (List.cons _) ih
      | placeable p => exact congrArg (List.cons _) ih

theorem Piece.elements_respan (hf : ∀ s t : Span, f (s.extend t) = (f s).extend (f t))
    (pieces : List Piece) : elements (pieces.map (·.respan f)) = (elements pieces).map (·.respan f) := by
  rw [elements, commonIndent_respan, List.filterMap_map]
  have hdedent : (fun p => dedent (commonIndent pieces) (p.respan f)) =
      fun p => (dedent (commonIndent pieces) p).map (·.respan f) :=
    funext fun p => dedent_respan f _ p
  rw [Function.comp_def, hdedent, ← List.map_filterMap, Element.join_respan hf, Element.trimLast_respan, elements]

end Laws

-- ---------------------------------------------------------------------------
-- Attaching
-- ---------------------------------------------------------------------------

namespace Block

variable {b : Block} {bs : List Block}

theorem attach_cons (h : b.touchesNext → ∀ c, b.entry ≠ .comment .note c) :
    attach (b :: bs) = b.entry :: attach bs := by
  obtain ⟨entry, touchesNext⟩ := b
  rw [attach]
  intro c next rest heq _
  obtain ⟨rfl, rfl⟩ := Block.mk.inj heq
  exact h rfl c rfl

theorem attach_singleton (b : Block) : attach [b] = [b.entry] := by
  obtain ⟨entry, touchesNext⟩ := b
  rw [attach]
  · rfl
  · intro c next rest _ heq
    exact absurd heq (by simp)

/-- Attaching takes the two ends of a span from different nodes. -/
theorem attach_respan {f : Span → Span}
    (hf : ∀ s t : Span, f ⟨s.start, t.stop⟩ = ⟨(f s).start, (f t).stop⟩) (bs : List Block) :
    attach (bs.map (·.respan f)) = (attach bs).map (·.respan f) := by
  have hnext (c : Comment) (b : Block) :
      (b.respan f).entry.withComment (c.respan f) = (b.entry.withComment c).map (·.respan f) := by
    obtain ⟨entry, touchesNext⟩ := b
    cases entry with
    | message m =>
      change some (Entry.message { m.respan f with
        comment := some (c.respan f), span := ⟨(f c.span).start, (f m.span).stop⟩ }) = _
      rw [← hf]
      rfl
    | term t =>
      change some (Entry.term { t.respan f with
        comment := some (c.respan f), span := ⟨(f c.span).start, (f t.span).stop⟩ }) = _
      rw [← hf]
      rfl
    | comment => rfl
  fun_induction attach bs with
  | case1 => rfl
  | case2 c next rest e he ih =>
    change attach (⟨.comment .note (c.respan f), true⟩ :: next.respan f ::
      rest.map (·.respan f)) = _
    simp only [attach, hnext, he, Option.map_some, ih, List.map_cons]
  | case3 c next rest he ih =>
    change attach (⟨.comment .note (c.respan f), true⟩ :: next.respan f ::
      rest.map (·.respan f)) = _
    simp only [attach, hnext, he, Option.map_none]
    exact congrArg (List.cons _) ih
  | case4 b rest hnot ih =>
    cases rest with
    | nil => rw [List.map_singleton, attach_singleton]; rfl
    | cons next rest =>
      rw [List.map_cons, attach_cons, ih]
      · rfl
      · obtain ⟨entry, touchesNext⟩ := b
        rintro rfl c hnote
        cases entry with
        | comment level k =>
          obtain ⟨rfl, -⟩ : level = .note ∧ _ := by simpa [respan, Entry.respan] using hnote
          exact hnot k _ _ rfl rfl
        | message | term => simp [respan, Entry.respan] at hnote

end Block

-- ---------------------------------------------------------------------------
-- Spans as they are
-- ---------------------------------------------------------------------------

@[simp] theorem Identifier.respan_id (id' : Identifier) : id'.respan id = id' := rfl

@[simp] theorem Literal.respan_id (l : Literal) : l.respan id = l := by
  cases l <;> rfl

@[simp] theorem VariantKey.respan_id (k : VariantKey) : k.respan id = k := by
  cases k <;> rfl

@[simp] theorem NamedArgument.respan_id (a : NamedArgument) : a.respan id = a := by
  simp [respan]

mutual

theorem Pattern.respan_id : (p : Pattern) → p.respan id = p
  | ⟨elements, _⟩ => by rw [Pattern.respan, Element.respanAll_id elements]; rfl

theorem Element.respanAll_id : (es : List Element) → Element.respanAll id es = es
  | [] => rfl
  | e :: es => by rw [Element.respanAll, Element.respan_id e, Element.respanAll_id es]

theorem Element.respan_id : (e : Element) → e.respan id = e
  | .text _ => rfl
  | .placeable p => by rw [Element.respan, Placeable.respan_id p]

theorem Placeable.respan_id : (p : Placeable) → p.respan id = p
  | ⟨expression, _⟩ => by rw [Placeable.respan, Expression.respan_id expression]; rfl

theorem Expression.respan_id : (e : Expression) → e.respan id = e
  | .inline e => by rw [Expression.respan, Inline.respan_id e]
  | .select s => by rw [Expression.respan, Selection.respan_id s]

theorem Selection.respan_id : (s : Selection) → s.respan id = s
  | ⟨selector, variants, _⟩ => by
    rw [Selection.respan, Inline.respan_id selector, Variant.respanAll_id variants]; rfl

theorem Variant.respanAll_id : (vs : List Variant) → Variant.respanAll id vs = vs
  | [] => rfl
  | v :: vs => by rw [Variant.respanAll, Variant.respan_id v, Variant.respanAll_id vs]

theorem Variant.respan_id : (v : Variant) → v.respan id = v
  | ⟨key, value, _, _⟩ => by
    rw [Variant.respan, Pattern.respan_id value, VariantKey.respan_id]; rfl

theorem Inline.respan_id : (e : Inline) → e.respan id = e
  | .literal l => by rw [Inline.respan, Literal.respan_id]
  | .functionCall callee args span => by
    rw [Inline.respan, Arguments.respan_id args]; rfl
  | .messageRef _ attr _ => by cases attr <;> rfl
  | .termRef _ attr none _ => by cases attr <;> rfl
  | .termRef _ attr (some args) _ => by
    rw [Inline.respan, Arguments.respan_id args]; cases attr <;> rfl
  | .variableRef _ _ => rfl
  | .placeable p => by rw [Inline.respan, Placeable.respan_id p]

theorem Inline.respanAll_id : (es : List Inline) → Inline.respanAll id es = es
  | [] => rfl
  | e :: es => by rw [Inline.respanAll, Inline.respan_id e, Inline.respanAll_id es]

theorem Arguments.respan_id : (args : Arguments) → args.respan id = args
  | ⟨positional, named⟩ => by
    rw [Arguments.respan, Inline.respanAll_id positional]; simp

end

@[simp] theorem Comment.respan_id (c : Comment) : c.respan id = c := rfl

@[simp] theorem Entry.respan_id (e : Entry) : e.respan id = e := by
  have hattribute : ∀ a : Attribute, a.respan id = a := fun a => by
    simp [Attribute.respan, Pattern.respan_id]
  cases e with
  | message m => simp [respan, Message.respan, Pattern.respan_id, hattribute]
  | term t => simp [respan, Term.respan, Pattern.respan_id, hattribute]
  | comment => rfl

theorem Span.shift_extend (n : Nat) (s t : Span) :
    (s.extend t).shift n = (s.shift n).extend (t.shift n) := by
  simp only [Span.shift, Span.extend, Span.mk.injEq]
  omega

end MessageLint
