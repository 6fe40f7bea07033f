-- SUMMARY: One walk over a resource that makes all findings, in document order.
import MessageLint.Check.Comment
import MessageLint.Check.Identifier
import MessageLint.Check.Typography

/-!
# Linting

A resource is walked from front to back and from the outside in. Values and the values of attributes
and variants are entered; selectors, keys, arguments and the names in references are not. Where a
project does not support attributes or variants at all, each is one finding and is not entered.

The findings of all rules are made, and those of disabled rules are left out at the end: what one
rule finds never depends on whether another one reports, except that attributes and variants may be
closed.
-/

namespace MessageLint

-- ---------------------------------------------------------------------------
-- Values
-- ---------------------------------------------------------------------------

mutual

/-- The findings in a value. When `closed`, selections are not entered. -/
def Pattern.findings (closed : Bool) : Pattern → List Finding
  | ⟨elements, _⟩ => elementsFindings closed elements

def elementsFindings (closed : Bool) : List Element → List Finding
  | [] => []
  | e :: es => e.findings closed ++ elementsFindings closed es

def Element.findings (closed : Bool) : Element → List Finding
  | .text t => t.findings
  | .placeable p => p.findings closed

def Placeable.findings (closed : Bool) : Placeable → List Finding
  | ⟨expression, _⟩ => expression.findings closed

def Expression.findings (closed : Bool) : Expression → List Finding
  | .inline e => e.findings closed
  | .select s => s.findings closed

def Selection.findings (closed : Bool) : Selection → List Finding
  | ⟨_, variants, span⟩ =>
    if closed && !variants.isEmpty then
      [⟨.unsupportedVariants, span, ""⟩]
    else
      variantsFindings closed variants

def variantsFindings (closed : Bool) : List Variant → List Finding
  | [] => []
  | v :: vs => v.findings closed ++ variantsFindings closed vs

def Variant.findings (closed : Bool) : Variant → List Finding
  | ⟨_, value, _, _⟩ => value.findings closed

def Inline.findings (closed : Bool) : Inline → List Finding
  | .messageRef _ _ span => [⟨.unsupportedMessageReferences, span, ""⟩]
  | .termRef _ _ _ span => [⟨.unsupportedTermReferences, span, ""⟩]
  | .placeable p => p.findings closed
  | _ => []

end

-- ---------------------------------------------------------------------------
-- Entries
-- ---------------------------------------------------------------------------

/-- What has come before an entry. -/
structure Preceding where
  /-- The keys of the messages and terms so far. -/
  keys : List String
  /-- Whether a group was opened that no message or term belongs to yet. -/
  openGroup : Bool

namespace Preceding

def nothing : Preceding := ⟨[], false⟩

/-- A finding if the definition with this key is not the first. -/
def duplicate (before : Preceding) (key : String) (span : Span) : List Finding :=
  if before.keys.contains key then [⟨.duplicateIdentifier, span, key⟩] else []

/-- A definition closes the group before it. -/
def define (before : Preceding) (key : String) : Preceding := ⟨key :: before.keys, false⟩

end Preceding

def Attribute.findings (rules : RuleSet) (a : Attribute) : List Finding :=
  if rules.isEnabled .unsupportedAttributes then
    [⟨.unsupportedAttributes, a.span, ""⟩]
  else
    a.value.findings (rules.isEnabled .unsupportedVariants)

namespace Entry

/-- The name under which a definition must be the only one: a term keeps its `-`. -/
def key? : Entry → Option String
  | .message m => some m.id.name
  | .term t => some ("-" ++ t.id.name)
  | .comment .. => none

/-- The findings in one entry, from what came before it and whether it is the last. -/
def findings (rules : RuleSet) (src : Source) (before : Preceding) (isLast : Bool) :
    Entry → List Finding
  | .message m =>
    before.duplicate m.id.name m.span ++
      m.id.findings rules src.path ++
      (m.value.map (·.findings (rules.isEnabled .unsupportedVariants))).getD [] ++
      m.attributes.flatMap (·.findings rules)
  | .term t =>
    ⟨.unsupportedTerms, t.span, ""⟩ :: before.duplicate ("-" ++ t.id.name) t.span ++
      t.id.findings rules src.path ++
      t.value.findings (rules.isEnabled .unsupportedVariants) ++
      t.attributes.flatMap (·.findings rules)
  | .comment .note _ => []
  | .comment .group c =>
    (c.groupFault? src before.openGroup isLast).toList.map fun rule => ⟨rule, c.span, ""⟩
  | .comment .resource c =>
    (c.resourceFault? src (!before.keys.isEmpty) isLast).toList.map fun rule => ⟨rule, c.span, ""⟩

/-- What has come before the entry behind this one. -/
def followedBy (before : Preceding) : Entry → Preceding
  | .message m => before.define m.id.name
  | .term t => before.define ("-" ++ t.id.name)
  | .comment .group _ => { before with openGroup := true }
  | .comment _ _ => before

end Entry

/-- The findings in a list of entries. -/
def entriesFindings (rules : RuleSet) (src : Source) (before : Preceding) :
    List Entry → List Finding
  | [] => []
  | e :: es =>
    e.findings rules src before es.isEmpty ++ entriesFindings rules src (e.followedBy before) es

-- ---------------------------------------------------------------------------
-- Violations
-- ---------------------------------------------------------------------------

/-- The name under which the whole walk is known. -/
def linterName : String := "fluent-lint"

def linterDescription : String :=
  "Checks comments, identifiers, syntax features and typography of Fluent files"

def Resource.findings (rules : RuleSet) (src : Source) (r : Resource) : List Finding :=
  entriesFindings rules src .nothing r.body

/-- The violations of enabled rules in the order of the walk. -/
def Resource.lint (rules : RuleSet) (src : Source) (r : Resource) : List Violation :=
  ((r.findings rules src).filter (rules.isEnabled ·.rule)).map fun f =>
    Violation.of f.rule (src.location f.span) f.message

end MessageLint
