-- SUMMARY: Placeables, references, calls and selections.
import MessageLint.Grammar.Name
import MessageLint.Grammar.Quoted
import MessageLint.Grammar.Pattern

/-!
# Expressions

Expressions nest in two ways: through the braces of a placeable and through the parentheses of a
call. Each construct is written against the two parsers for what is nested in it (`Nested`); the
knot is tied once, at the end, by `Parser.inline` and `Parser.placeable`, where both get shorter
texts.
-/

namespace MessageLint

/-- The parsers for what a construct may contain. -/
structure Nested where
  inline : Parser Inline
  placeable : Parser Placeable

-- ---------------------------------------------------------------------------
-- Call arguments
-- ---------------------------------------------------------------------------

inductive Argument where
  | positional (e : Inline)
  | named (a : NamedArgument)

namespace Argument

def positional? : Argument → Option Inline
  | .positional e => some e
  | .named _ => none

def named? : Argument → Option NamedArgument
  | .positional _ => none
  | .named a => some a

end Argument

/-- An argument, and whether a comma follows it. -/
structure ListedArgument where
  argument : Argument
  comma : Bool

/-- The named arguments of a list that is being read. -/
def ListedArgument.named (seen : List ListedArgument) : List NamedArgument :=
  seen.filterMap (·.argument.named?)

namespace Parser

def literal : Parser Literal := do
  let start ← place
  if start.startsNumber then
    return .number (← number)
  else if start.peek = some '"' then
    return .string (← stringLiteral)
  else
    fail .missingLiteral

/-- At the colon behind `e`: only a plain identifier that is not taken yet can name an argument. -/
def namedArgument (taken : List NamedArgument) (e : Inline) : Parser NamedArgument := do
  match e with
  | .messageRef id none _ =>
    if taken.any (·.name.name == id.name) then
      failAt id.span (.duplicatedNamedArgument id.name)
    else
      skip 1
      skipBlank
      return ⟨id, ← literal⟩
  | _ => failAt e.span .forbiddenKey

def listedArgument (nested : Nested) (seen : List ListedArgument) : Parser ListedArgument := do
  let e ← nested.inline
  skipBlank
  let argument ←
    if (← peek) = some ':' then
      Argument.named <$> namedArgument (ListedArgument.named seen) e
    else if (ListedArgument.named seen).isEmpty then
      pure (Argument.positional e)
    else
      failAt e.span .positionalArgumentFollowsNamed
  skipBlank
  if (← peek) = some ',' then
    skip 1
    skipBlank
    return ⟨argument, true⟩
  else
    return ⟨argument, false⟩

/-- Whether another argument must follow: the list is not closed, and the last one had a comma. -/
def moreArguments (seen : List ListedArgument) (c : Cursor) : Bool :=
  seen.head?.all (·.comma) && c.peek ≠ some ')'

def arguments (nested : Nested) : Parser Arguments := do
  token '('
  skipBlank
  let listed ← gather moreArguments (listedArgument nested) []
  token ')'
  return ⟨listed.filterMap (·.argument.positional?), ListedArgument.named listed⟩

-- ---------------------------------------------------------------------------
-- References
-- ---------------------------------------------------------------------------

/-- `.name` directly behind a reference. -/
def accessor : Parser (Option Identifier) := do
  if (← peek) = some '.' then
    skip 1
    return some (← identifier)
  else
    return none

def variableRef : Parser Inline := do
  let start ← place
  skip 1
  let id ← identifier
  return .variableRef id (← spanFrom start)

def termRef (nested : Nested) : Parser Inline := do
  let start ← place
  skip 1
  let id ← identifier
  let attr ← accessor
  let args ← if ← skipBlankBefore '(' then some <$> arguments nested else pure none
  return .termRef id attr args (← spanFrom start)

/-- A function call if a parenthesis follows the name, else a reference to a message. -/
def callOrMessageRef (nested : Nested) : Parser Inline := do
  let start ← place
  let id ← identifier
  if (← place).skipBlank.peek = some '(' then
    if isCallee id.name.toList then
      skipBlank
      let args ← arguments nested
      return .functionCall id args (← spanFrom start)
    else
      failAt id.span (.forbiddenCallee id.name)
  else
    let attr ← accessor
    return .messageRef id attr (← spanFrom start)

-- ---------------------------------------------------------------------------
-- Selections
-- ---------------------------------------------------------------------------

end Parser

/-- Whether a variant starts here. -/
def Cursor.startsVariant (c : Cursor) : Bool :=
  match c.rest with
  | '[' :: _ => true
  | '*' :: '[' :: _ => true
  | _ => false

/-- Why an expression cannot select between variants. Only literals, variables, function calls and
attributes of terms can. -/
def Inline.selectorFault? : Inline → Option SyntaxCause
  | .messageRef _ none _ => some .messageReferenceAsSelector
  | .messageRef _ (some _) _ => some .messageAttributeAsSelector
  | .termRef _ none _ _ => some .termReferenceAsSelector
  | .placeable _ => some .expectedSimpleExpressionAsSelector
  | _ => none

namespace Parser

def variantKey : Parser VariantKey := do
  if (← place).startsNumber then
    return .number (← number)
  else
    return .name (← identifier)

/-- The `*` of a default variant, of which there can be one. -/
def defaultMark (seen : List Variant) : Parser Bool := do
  if (← peek) = some '*' then
    if seen.any (·.isDefault) then
      fail .multipleDefaultVariants
    else
      skip 1
      return true
  else
    return false

def variant (nested : Nested) (seen : List Variant) : Parser Variant := do
  let start ← place
  let isDefault ← defaultMark seen
  token '['
  skipBlank
  let key ← variantKey
  skipBlank
  token ']'
  let value ← requiredPattern nested.placeable
  return ⟨key, value, isDefault, ← spanFrom start⟩

/-- A variant and the blanks behind its line. -/
def variantLine (nested : Nested) (seen : List Variant) : Parser Variant := do
  let v ← variant nested seen
  lineEnd
  skipBlank
  return v

def variants (nested : Nested) : Parser (List Variant) := do
  skipBlank
  let vs ← gather (fun _ c => c.startsVariant) (variantLine nested) []
  if vs.isEmpty then
    fail .missingVariants
  else if vs.any (·.isDefault) then
    return vs
  else
    fail .missingDefaultVariant

/-- At the arrow behind `selector`, which began at `start`. -/
def selection (nested : Nested) (start : Cursor) (selector : Inline) : Parser Selection := do
  match selector.selectorFault? with
  | some cause => failAt selector.span cause
  | none =>
    skip 2
    skipSpaces
    lineEnd
    let vs ← variants nested
    return ⟨selector, vs, ← spanFrom start⟩

-- ---------------------------------------------------------------------------
-- Placeables
-- ---------------------------------------------------------------------------

def expression (nested : Nested) : Parser Expression := do
  let start ← place
  let e ← nested.inline
  skipBlank
  if ['-', '>'].isPrefixOf (← place).rest then
    return .select (← selection nested start e)
  else
    match e with
    | .termRef _ (some _) _ span => failAt span .termAttributeAsPlaceable
    | _ => return .inline e

def placeableWith (nested : Nested) : Parser Placeable := do
  let start ← place
  token '\x7b'
  skipBlank
  let e ← expression nested
  token '\x7d'
  return ⟨e, ← spanFrom start⟩

def inlineWith (nested : Nested) : Parser Inline := do
  let start ← place
  if start.startsNumber then
    return .literal (.number (← number))
  else
    match start.peek with
    | some '\x7b' => return .placeable (← placeableWith nested)
    | some '"' => return .literal (.string (← stringLiteral))
    | some '$' => variableRef
    | some '-' => termRef nested
    | some ch => if ch.isAlpha then callOrMessageRef nested else fail .expectedInlineExpression
    | none => fail .expectedInlineExpression

mutual

def inline (c : Cursor) : Except SyntaxError (Inline × Cursor) :=
  let nested : Nested :=
    { inline := below c.rest.length fun d _ => inline d
      placeable := below c.rest.length fun d _ => placeable d }
  inlineWith nested c
termination_by c.rest.length

def placeable (c : Cursor) : Except SyntaxError (Placeable × Cursor) :=
  let nested : Nested :=
    { inline := below c.rest.length fun d _ => inline d
      placeable := below c.rest.length fun d _ => placeable d }
  placeableWith nested c
termination_by c.rest.length

end

end Parser

end MessageLint
