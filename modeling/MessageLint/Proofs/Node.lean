-- SUMMARY: The tree of a resource seen through one type: nodes, their spans and their children.
import Mathlib
import MessageLint.Resource

/-!
# Nodes

A statement about "every node at any depth" needs one type for what entries, patterns, expressions
and names have in common. A `Node` is any part of a resource that has a span; `Node.children` lists
the parts directly below it in the order of the source, and `Node.Holds` is being below at any depth.
-/

namespace MessageLint

/-- A part of a resource. -/
inductive Node where
  | resource (r : Resource)
  | entry (e : Entry)
  /-- A comment that belongs to a message or term. -/
  | note (c : Comment)
  | attribute (a : Attribute)
  | pattern (p : Pattern)
  | text (t : TextElement)
  | placeable (p : Placeable)
  | selection (s : Selection)
  | variant (v : Variant)
  | inline (e : Inline)
  | identifier (id : Identifier)
  | number (n : NumberLiteral)
  | string (s : StringLiteral)

namespace Node

-- ---------------------------------------------------------------------------
-- Parts as nodes
-- ---------------------------------------------------------------------------

def ofLiteral : Literal → Node
  | .string s => .string s
  | .number n => .number n

def ofKey : VariantKey → Node
  | .name id => .identifier id
  | .number n => .number n

def ofElement : Element → Node
  | .text t => .text t
  | .placeable p => .placeable p

def ofExpression : Expression → Node
  | .inline e => .inline e
  | .select s => .selection s

/-- The name and the value of a named argument. -/
def ofNamed (a : NamedArgument) : List Node := [.identifier a.name, ofLiteral a.value]

/-- The arguments of a call, the positional ones first. -/
def ofArguments (args : Arguments) : List Node :=
  args.positional.map .inline ++ args.named.flatMap ofNamed

-- ---------------------------------------------------------------------------
-- Spans and children
-- ---------------------------------------------------------------------------

def span : Node → Span
  | .resource r => r.span
  | .entry e => e.span
  | .note c => c.span
  | .attribute a => a.span
  | .pattern p => p.span
  | .text t => t.span
  | .placeable p => p.span
  | .selection s => s.span
  | .variant v => v.span
  | .inline e => e.span
  | .identifier id => id.span
  | .number n => n.span
  | .string s => s.span

/-- The nodes directly below a node, in the order of the source. -/
def children : Node → List Node
  | .resource r => r.body.map .entry
  | .entry (.message m) =>
    m.comment.toList.map .note ++ .identifier m.id :: m.value.toList.map .pattern ++
      m.attributes.map .attribute
  | .entry (.term t) =>
    t.comment.toList.map .note ++ .identifier t.id :: .pattern t.value :: t.attributes.map .attribute
  | .entry (.comment _ _) => []
  | .note _ => []
  | .attribute a => [.identifier a.id, .pattern a.value]
  | .pattern p => p.elements.map ofElement
  | .text _ => []
  | .placeable p => [ofExpression p.expression]
  | .selection s => .inline s.selector :: s.variants.map .variant
  | .variant v => [ofKey v.key, .pattern v.value]
  | .inline (.literal l) => [ofLiteral l]
  | .inline (.functionCall callee args _) => .identifier callee :: ofArguments args
  | .inline (.messageRef id attr _) => .identifier id :: attr.toList.map .identifier
  | .inline (.termRef id attr args _) =>
    .identifier id :: attr.toList.map .identifier ++ args.toList.flatMap ofArguments
  | .inline (.variableRef id _) => [.identifier id]
  | .inline (.placeable p) => [.placeable p]
  | .identifier _ => []
  | .number _ => []
  | .string _ => []

/-- `n.Holds k`: the node `k` is `n` or stands below it, at any depth. -/
inductive Holds : Node → Node → Prop
  | self (n : Node) : Holds n n
  | child {n k l : Node} : k ∈ n.children → Holds k l → Holds n l

end Node

end MessageLint
