-- SUMMARY: The canonical text of a resource, and the trees that can be written.
import Mathlib
import MessageLint.Grammar.Entry

/-!
# Canonical texts

`render` writes a tree down, without a look at its spans: every pattern on the line of its `=` or `]`,
every attribute and variant on a line of its own, indented by four spaces, and a blank line between
entries. `Canonical` holds of the trees that have a text at all: names and numbers are spelled as the
grammar wants them, text holds nothing that would end it, and calls and selections keep their rules.
-/

namespace MessageLint

-- ---------------------------------------------------------------------------
-- Names and literals
-- ---------------------------------------------------------------------------

/-- `[A-Za-z][A-Za-z0-9_-]*` -/
def IsName : List Char → Prop
  | [] => False
  | first :: rest => first.isAlpha ∧ ∀ ch ∈ rest, isNameChar ch

/-- `[0-9]+` -/
def IsDigits (run : List Char) : Prop := run ≠ [] ∧ ∀ ch ∈ run, ch.isDigit

/-- `-?[0-9]+(\.[0-9]+)?` -/
def IsNumber (text : List Char) : Prop :=
  ∃ sign whole fraction, text = sign ++ (whole ++ fraction) ∧ (sign = [] ∨ sign = ['-']) ∧
    IsDigits whole ∧ (fraction = [] ∨ ∃ run, fraction = '.' :: run ∧ IsDigits run)

/-- A character of a quoted text: quotes and backslashes are escaped, and a line end has only its
number. -/
def renderQuoted (ch : Char) : List Char :=
  if ch = '"' then ['\\', '"']
  else if ch = '\\' then ['\\', '\\']
  else if ch = '\n' then ['\\', 'u', '0', '0', '0', 'A']
  else [ch]

def Identifier.render (id : Identifier) : List Char := id.name.toList

def Identifier.Canonical (id : Identifier) : Prop := IsName id.name.toList

def Literal.render : Literal → List Char
  | .string s => '"' :: (s.value.toList.flatMap renderQuoted ++ ['"'])
  | .number n => n.value.toList

def Literal.Canonical : Literal → Prop
  | .string _ => True
  | .number n => IsNumber n.value.toList

def NamedArgument.render (a : NamedArgument) : List Char :=
  a.name.render ++ ':' :: ' ' :: a.value.render

def NamedArgument.Canonical (a : NamedArgument) : Prop := a.name.Canonical ∧ a.value.Canonical

def VariantKey.render : VariantKey → List Char
  | .name id => id.render
  | .number n => n.value.toList

def VariantKey.Canonical : VariantKey → Prop
  | .name id => id.Canonical
  | .number n => IsNumber n.value.toList

/-- `.name` behind a reference, if there is one. -/
def renderAccessor (attr : Option Identifier) : List Char :=
  match attr with
  | none => []
  | some id => '.' :: id.render

-- ---------------------------------------------------------------------------
-- Texts of patterns and expressions
-- ---------------------------------------------------------------------------

mutual

def Pattern.render : Pattern → List Char
  | ⟨elements, _⟩ => Element.renderAll elements

def Element.renderAll : List Element → List Char
  | [] => []
  | e :: es => e.render ++ Element.renderAll es

def Element.render : Element → List Char
  | .text t => t.value.toList
  | .placeable p => p.render

def Placeable.render : Placeable → List Char
  | ⟨expression, _⟩ => '\x7b' :: ' ' :: (expression.render ++ ['\x7d'])

def Expression.render : Expression → List Char
  | .inline e => e.render ++ [' ']
  | .select s => s.render

def Selection.render : Selection → List Char
  | ⟨selector, variants, _⟩ =>
    selector.render ++ ' ' :: '-' :: '>' :: '\n' :: Variant.renderAll variants

def Variant.renderAll : List Variant → List Char
  | [] => []
  | v :: vs => v.render ++ Variant.renderAll vs

def Variant.render : Variant → List Char
  | ⟨key, value, isDefault, _⟩ =>
    (if isDefault then [' ', ' ', ' ', '*'] else [' ', ' ', ' ', ' ']) ++
      '[' :: (key.render ++ ']' :: ' ' :: (value.render ++ ['\n']))

def Inline.render : Inline → List Char
  | .literal l => l.render
  | .functionCall callee arguments _ => callee.render ++ arguments.render
  | .messageRef id attr _ => id.render ++ renderAccessor attr
  | .termRef id attr none _ => '-' :: (id.render ++ renderAccessor attr)
  | .termRef id attr (some args) _ => '-' :: (id.render ++ (renderAccessor attr ++ args.render))
  | .variableRef id _ => '$' :: id.render
  | .placeable p => p.render

def Inline.renderEach : List Inline → List (List Char)
  | [] => []
  | e :: es => e.render :: Inline.renderEach es

def Arguments.render : Arguments → List Char
  | ⟨positional, named⟩ =>
    '(' :: ([',', ' '].intercalate (Inline.renderEach positional ++ named.map (·.render)) ++ [')'])

end

-- ---------------------------------------------------------------------------
-- Trees with a text
-- ---------------------------------------------------------------------------

namespace Element

/-- Nowhere two texts in a row. -/
def Apart : List Element → Prop
  | .text _ :: .text _ :: _ => False
  | _ :: es => Apart es
  | [] => True

/-- Blanks at either end of a pattern would not be read as part of it. -/
def Trimmed (es : List Element) : Prop :=
  (∀ t, es.head? = some (.text t) → t.value.toList.head? ≠ some ' ') ∧
    ∀ t, es.getLast? = some (.text t) → t.value.toList.getLast? ≠ some ' '

end Element

/-- The attribute of a term may select or be an argument, but it cannot be shown. -/
def Inline.IsTermAttribute : Inline → Prop
  | .termRef _ (some _) _ _ => True
  | _ => False

/-- References to messages, terms without attribute and placeables do not select. -/
def Inline.Selects : Inline → Prop
  | .messageRef .. => False
  | .termRef _ none _ _ => False
  | .placeable _ => False
  | _ => True

mutual

def Pattern.Canonical : Pattern → Prop
  | ⟨elements, _⟩ =>
    elements ≠ [] ∧ Element.Apart elements ∧ Element.Trimmed elements ∧
      Element.AllCanonical elements

def Element.AllCanonical : List Element → Prop
  | [] => True
  | e :: es => e.Canonical ∧ Element.AllCanonical es

def Element.Canonical : Element → Prop
  | .text t => t.value ≠ "" ∧ ∀ ch ∈ t.value.toList, ch ≠ '\x7b' ∧ ch ≠ '\x7d' ∧ ch ≠ '\n'
  | .placeable p => p.Canonical

def Placeable.Canonical : Placeable → Prop
  | ⟨expression, _⟩ => expression.Canonical

def Expression.Canonical : Expression → Prop
  | .inline e => e.Canonical ∧ ¬e.IsTermAttribute
  | .select s => s.Canonical

def Selection.Canonical : Selection → Prop
  | ⟨selector, variants, _⟩ =>
    selector.Canonical ∧ selector.Selects ∧ variants.countP (·.isDefault) = 1 ∧
      Variant.AllCanonical variants

def Variant.AllCanonical : List Variant → Prop
  | [] => True
  | v :: vs => v.Canonical ∧ Variant.AllCanonical vs

def Variant.Canonical : Variant → Prop
  | ⟨key, value, _, _⟩ => key.Canonical ∧ value.Canonical

def Inline.Canonical : Inline → Prop
  | .literal l => l.Canonical
  | .functionCall callee arguments _ => isCallee callee.name.toList ∧ arguments.Canonical
  | .messageRef id attr _ => id.Canonical ∧ ∀ a ∈ attr, a.Canonical
  | .termRef id attr none _ => id.Canonical ∧ ∀ a ∈ attr, a.Canonical
  | .termRef id attr (some args) _ =>
    id.Canonical ∧ (∀ a ∈ attr, a.Canonical) ∧ args.Canonical
  | .variableRef id _ => id.Canonical
  | .placeable p => p.Canonical

def Inline.AllCanonical : List Inline → Prop
  | [] => True
  | e :: es => e.Canonical ∧ Inline.AllCanonical es

def Arguments.Canonical : Arguments → Prop
  | ⟨positional, named⟩ =>
    Inline.AllCanonical positional ∧ (∀ a ∈ named, a.Canonical) ∧ (named.map (·.name.name)).Nodup

end

-- ---------------------------------------------------------------------------
-- Entries
-- ---------------------------------------------------------------------------

def CommentLevel.renderLine (level : CommentLevel) (line : List Char) : List Char :=
  List.replicate level.markers '#' ++ if line.isEmpty then [] else ' ' :: line

def Comment.render (level : CommentLevel) (c : Comment) : List Char :=
  ['\n'].intercalate ((c.content.toList.splitOn '\n').map level.renderLine)

/-- The line of an attribute, from the end of the line before it. -/
def Attribute.render (a : Attribute) : List Char :=
  '\n' :: ' ' :: ' ' :: ' ' :: ' ' :: '.' :: (a.id.render ++ ' ' :: '=' :: ' ' :: a.value.render)

def Attribute.Canonical (a : Attribute) : Prop := a.id.Canonical ∧ a.value.Canonical

/-- The note in front of a message or term. -/
def renderNote (comment : Option Comment) : List Char :=
  match comment with
  | none => []
  | some c => c.render .note ++ ['\n']

/-- The value of a message, which can be missing. -/
def renderValue (value : Option Pattern) : List Char :=
  match value with
  | none => []
  | some p => ' ' :: p.render

namespace Entry

def render : Entry → List Char
  | .message m =>
    renderNote m.comment ++ (m.id.render ++
      ' ' :: '=' :: (renderValue m.value ++ m.attributes.flatMap (·.render)))
  | .term t =>
    renderNote t.comment ++ '-' :: (t.id.render ++
      ' ' :: '=' :: ' ' :: (t.value.render ++ t.attributes.flatMap (·.render)))
  | .comment level c => c.render level

def Canonical : Entry → Prop
  | .message m =>
    m.id.Canonical ∧ (∀ p ∈ m.value, p.Canonical) ∧ (∀ a ∈ m.attributes, a.Canonical) ∧
      (m.value.isSome ∨ m.attributes ≠ [])
  | .term t => t.id.Canonical ∧ t.value.Canonical ∧ ∀ a ∈ t.attributes, a.Canonical
  | .comment .. => True

end Entry

namespace Resource

def render (r : Resource) : String :=
  String.ofList (['\n'].intercalate (r.body.map fun e => e.render ++ ['\n']))

def Canonical (r : Resource) : Prop := ∀ e ∈ r.body, e.Canonical

end Resource

theorem Inline.renderEach_eq_map (es : List Inline) : Inline.renderEach es = es.map (·.render) := by
  induction es with
  | nil => rfl
  | cons e es ih => rw [Inline.renderEach, ih, List.map_cons]

theorem Inline.allCanonical_iff {es : List Inline} :
    Inline.AllCanonical es ↔ ∀ e ∈ es, e.Canonical := by
  induction es with
  | nil => simp [Inline.AllCanonical]
  | cons e es ih => rw [Inline.AllCanonical, ih, List.forall_mem_cons]

-- ---------------------------------------------------------------------------
-- How texts start
-- ---------------------------------------------------------------------------

theorem exists_head_of_isName {text : List Char} (h : IsName text) :
    ∃ first tail, text = first :: tail ∧ first.isAlpha := by
  cases text with
  | nil => exact h.elim
  | cons first tail => exact ⟨first, tail, rfl, h.1⟩

/-- Letters and digits are neither blanks nor the end of a list. -/
theorem opens_of_isAlphanum {ch : Char} (h : ch.isAlphanum) :
    Cursor.isBlank ch = false ∧ ch ≠ ')' := by
  have hne : ∀ d : Char, d.isAlphanum = false → ch ≠ d := by
    rintro d hd rfl
    simp [hd] at h
  exact ⟨by simp [Cursor.isBlank, hne ' ' (by decide), hne '\n' (by decide)], hne ')' (by decide)⟩

theorem exists_head_of_isNumber {text : List Char} (h : IsNumber text) :
    ∃ ch tail, text = ch :: tail ∧ Cursor.isBlank ch = false ∧ ch ≠ ')' := by
  obtain ⟨sign, whole, fraction, rfl, hsign, ⟨hne, hdigit⟩, -⟩ := h
  obtain ⟨ch, run, rfl⟩ := List.exists_cons_of_ne_nil hne
  have hch : ch.isDigit := hdigit ch List.mem_cons_self
  rcases hsign with rfl | rfl
  · exact ⟨ch, _, rfl, opens_of_isAlphanum (by simp [Char.isAlphanum, hch])⟩
  · exact ⟨'-', _, rfl, by decide, by decide⟩

theorem isName_of_isCallee {name : List Char} (h : isCallee name) : IsName name := by
  cases name with
  | nil => simp [isCallee] at h
  | cons first rest =>
    simp only [isCallee, Bool.and_eq_true, List.all_eq_true] at h
    refine ⟨by simp [Char.isAlpha, h.1], fun ch hch => ?_⟩
    have := h.2 ch hch
    simp only [isNameChar, Char.isAlphanum, Char.isAlpha]
    grind

theorem Literal.exists_head {l : Literal} (h : l.Canonical) :
    ∃ ch tail, l.render = ch :: tail ∧ Cursor.isBlank ch = false ∧ ch ≠ ')' := by
  cases l with
  | string s => exact ⟨'"', _, rfl, by decide, by decide⟩
  | number n => exact exists_head_of_isNumber h

theorem Identifier.exists_head {id : Identifier} (h : id.Canonical) :
    ∃ ch tail, id.render = ch :: tail ∧ Cursor.isBlank ch = false ∧ ch ≠ ')' := by
  obtain ⟨first, tail, hname, halpha⟩ := exists_head_of_isName h
  exact ⟨first, tail, hname, opens_of_isAlphanum (by simp [Char.isAlphanum, halpha])⟩

theorem VariantKey.exists_head {key : VariantKey} (h : key.Canonical) :
    ∃ ch tail, key.render = ch :: tail ∧ Cursor.isBlank ch = false ∧ ch ≠ ')' := by
  cases key with
  | name id => exact Identifier.exists_head h
  | number n => exact exists_head_of_isNumber h

/-- An inline expression starts with something that is neither blank nor the end of a list. -/
theorem Inline.exists_head {e : Inline} (h : e.Canonical) :
    ∃ ch tail, e.render = ch :: tail ∧ Cursor.isBlank ch = false ∧ ch ≠ ')' := by
  cases e with
  | literal l => exact Literal.exists_head h
  | functionCall callee args span =>
    obtain ⟨ch, tail, hhead, hopens⟩ := Identifier.exists_head (isName_of_isCallee h.1)
    exact ⟨ch, tail ++ args.render, by rw [Inline.render, hhead, List.cons_append], hopens⟩
  | messageRef id attr span =>
    obtain ⟨ch, tail, hhead, hopens⟩ := Identifier.exists_head h.1
    exact ⟨ch, tail ++ renderAccessor attr, by rw [Inline.render, hhead, List.cons_append], hopens⟩
  | termRef id attr args span =>
    cases args <;> exact ⟨'-', _, by rw [Inline.render], by decide, by decide⟩
  | variableRef id span => exact ⟨'$', _, by rw [Inline.render], by decide, by decide⟩
  | placeable p =>
    obtain ⟨expression, span⟩ := p
    exact ⟨'\x7b', _, by rw [Inline.render, Placeable.render], by decide, by decide⟩

theorem Expression.exists_head {e : Expression} (h : e.Canonical) :
    ∃ ch tail, e.render = ch :: tail ∧ Cursor.isBlank ch = false := by
  cases e with
  | inline e =>
    obtain ⟨ch, tail, hhead, hblank, -⟩ := Inline.exists_head h.1
    exact ⟨ch, tail ++ [' '], by rw [Expression.render, hhead, List.cons_append], hblank⟩
  | select s =>
    obtain ⟨selector, vs, span⟩ := s
    obtain ⟨ch, tail, hhead, hblank, -⟩ := Inline.exists_head h.1
    exact ⟨ch, _, by rw [Expression.render, Selection.render, hhead, List.cons_append], hblank⟩

theorem Element.exists_head {e : Element} (h : e.Canonical) :
    ∃ ch tail, e.render = ch :: tail ∧ ch ≠ '\n' := by
  cases e with
  | placeable p =>
    obtain ⟨expression, span⟩ := p
    exact ⟨'\x7b', _, rfl, by decide⟩
  | text t =>
    obtain ⟨hne, hclean⟩ := h
    obtain ⟨ch, tail, htail⟩ := List.exists_cons_of_ne_nil (l := t.value.toList) (by simpa using hne)
    exact ⟨ch, tail, htail, (hclean ch (by simp [htail])).2.2⟩

theorem Pattern.exists_head {p : Pattern} (h : p.Canonical) :
    ∃ ch tail, p.render = ch :: tail ∧ ch ≠ ' ' ∧ ch ≠ '\n' := by
  obtain ⟨elements, span⟩ := p
  obtain ⟨hne, -, ⟨hfirst, -⟩, hall⟩ := h
  obtain ⟨e, es, rfl⟩ := List.exists_cons_of_ne_nil hne
  obtain ⟨ch, tail, hhead, hline⟩ := Element.exists_head hall.1
  refine ⟨ch, tail ++ Element.renderAll es, ?_, ?_, hline⟩
  · change e.render ++ _ = _
    rw [hhead, List.cons_append]
  · rintro rfl
    cases e with
    | text t => exact hfirst t rfl (List.head?_eq_some_iff.2 ⟨tail, hhead⟩)
    | placeable p =>
      obtain ⟨expression, span⟩ := p
      simp [Element.render, Placeable.render] at hhead

end MessageLint
