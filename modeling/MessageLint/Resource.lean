-- SUMMARY: The tree of a message file: entries, patterns, expressions, each with its span.
import MessageLint.Span

/-!
# Resources

A resource is the content of one message file: messages (`id = …`), terms (`-id = …`) and
comments of three levels. Values are patterns, which alternate text and placeables (`{ … }`); a
placeable holds an inline expression or a selection between variants, whose values are patterns
again. Every node owns its text and the span it was read from, so the tree can be used without
the source.
-/

namespace MessageLint

-- ---------------------------------------------------------------------------
-- Leaves
-- ---------------------------------------------------------------------------

/-- A name as written, without a leading `-`, `$` or `.`. -/
structure Identifier where
  name : String
  span : Span
  deriving DecidableEq, Repr, Inhabited

/-- A number as written: the digits are text and are never evaluated. -/
structure NumberLiteral where
  value : String
  span : Span
  deriving DecidableEq, Repr, Inhabited

/-- A quoted text with its escapes resolved; the span includes the quotes. -/
structure StringLiteral where
  value : String
  span : Span
  deriving DecidableEq, Repr, Inhabited

inductive Literal where
  | string (s : StringLiteral)
  | number (n : NumberLiteral)
  deriving DecidableEq, Repr, Inhabited

/-- `name: literal` in an argument list. -/
structure NamedArgument where
  name : Identifier
  value : Literal
  deriving DecidableEq, Repr, Inhabited

/-- What stands between the brackets of a variant. -/
inductive VariantKey where
  | name (id : Identifier)
  | number (n : NumberLiteral)
  deriving DecidableEq, Repr, Inhabited

/-- Literal text of a pattern, indentation removed; it may run over several lines. -/
structure TextElement where
  value : String
  span : Span
  deriving DecidableEq, Repr, Inhabited

-- ---------------------------------------------------------------------------
-- Patterns and expressions
-- ---------------------------------------------------------------------------

mutual

/-- The value of a message, term, attribute or variant. -/
structure Pattern where
  elements : List Element
  span : Span

inductive Element where
  | text (t : TextElement)
  | placeable (p : Placeable)

/-- `{ expression }`, braces included in the span. -/
structure Placeable where
  expression : Expression
  span : Span

inductive Expression where
  | inline (e : Inline)
  | select (s : Selection)

/-- `selector -> variants`. -/
structure Selection where
  selector : Inline
  variants : List Variant
  span : Span

/-- `[key] value`, or `*[key] value` for the default. -/
structure Variant where
  key : VariantKey
  value : Pattern
  isDefault : Bool
  span : Span

/-- Expressions that may be shown, select, or be passed as arguments. -/
inductive Inline where
  | literal (l : Literal)
  /-- `CALLEE(arguments)`. -/
  | functionCall (callee : Identifier) (arguments : Arguments) (span : Span)
  /-- `message` or `message.attr`. -/
  | messageRef (id : Identifier) (attr : Option Identifier) (span : Span)
  /-- `-term` or `-term.attr`, either one with arguments. -/
  | termRef (id : Identifier) (attr : Option Identifier) (arguments : Option Arguments)
      (span : Span)
  /-- `$variable`. -/
  | variableRef (id : Identifier) (span : Span)
  /-- A placeable directly inside a placeable. -/
  | placeable (p : Placeable)

structure Arguments where
  positional : List Inline
  named : List NamedArgument

end

instance : Inhabited Pattern := ⟨⟨[], ⟨0, 0⟩⟩⟩

def Literal.span : Literal → Span
  | .string s => s.span
  | .number n => n.span

def VariantKey.span : VariantKey → Span
  | .name id => id.span
  | .number n => n.span

def Inline.span : Inline → Span
  | .literal l => l.span
  | .functionCall _ _ span => span
  | .messageRef _ _ span => span
  | .termRef _ _ _ span => span
  | .variableRef _ span => span
  | .placeable p => p.span

def Expression.span : Expression → Span
  | .inline e => e.span
  | .select s => s.span

def Element.span : Element → Span
  | .text t => t.span
  | .placeable p => p.span

-- ---------------------------------------------------------------------------
-- Entries
-- ---------------------------------------------------------------------------

/-- `.id = value` below a message or term. -/
structure Attribute where
  id : Identifier
  value : Pattern
  span : Span

/-- How many `#` open each line of a comment: one for a note on what follows, two for the heading
of a group of messages, three for a remark on the whole file. -/
inductive CommentLevel where
  | note
  | group
  | resource
  deriving DecidableEq, Repr, Inhabited

def CommentLevel.markers : CommentLevel → Nat
  | .note => 1
  | .group => 2
  | .resource => 3

/-- The lines of a comment without their markers, joined by line ends. The span leaves out the
final line end. -/
structure Comment where
  content : String
  span : Span
  deriving DecidableEq, Repr, Inhabited

/-- A public message; it has a value or at least one attribute. -/
structure Message where
  id : Identifier
  value : Option Pattern
  attributes : List Attribute
  comment : Option Comment
  span : Span

/-- A private term, reached only through references. -/
structure Term where
  id : Identifier
  value : Pattern
  attributes : List Attribute
  comment : Option Comment
  span : Span

inductive Entry where
  | message (m : Message)
  | term (t : Term)
  | comment (level : CommentLevel) (c : Comment)

namespace Entry

def span : Entry → Span
  | .message m => m.span
  | .term t => t.span
  | .comment _ c => c.span

def isComment : Entry → Bool
  | .comment .. => true
  | _ => false

end Entry

/-- A whole file; the span covers all of it. -/
structure Resource where
  body : List Entry
  span : Span

end MessageLint
