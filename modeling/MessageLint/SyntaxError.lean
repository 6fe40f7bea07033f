-- SUMMARY: Why a source is not a resource, and where.
import MessageLint.Span

/-!
# Syntax errors

Reading stops at the first fault. The fault is a `SyntaxCause`; its wording is in one place,
`SyntaxCause.message`.
-/

namespace MessageLint

/-- The character classes that an identifier or number must start with. -/
inductive CharRange where
  | letter
  | digit
  deriving DecidableEq, Repr, Inhabited

def CharRange.text : CharRange → String
  | .letter => "a-zA-Z"
  | .digit => "0-9"

inductive SyntaxCause where
  | expectedEntry
  | expectedToken (token : Char)
  | expectedCharRange (range : CharRange)
  /-- A message with neither value nor attributes. -/
  | expectedMessageField (id : String)
  /-- A term without a value. -/
  | expectedTermField (id : String)
  /-- An attribute or variant without a value. -/
  | missingValue
  /-- A function name that is not in upper case. -/
  | forbiddenCallee (name : String)
  /-- A named argument whose value is no literal. -/
  | missingLiteral
  /-- An argument name that is no plain identifier. -/
  | forbiddenKey
  | missingVariants
  | missingDefaultVariant
  | multipleDefaultVariants
  | messageReferenceAsSelector
  | termReferenceAsSelector
  | messageAttributeAsSelector
  | termAttributeAsPlaceable
  | expectedSimpleExpressionAsSelector
  | unterminatedStringLiteral
  | positionalArgumentFollowsNamed
  | duplicatedNamedArgument (name : String)
  | unknownEscapeSequence (c : Char)
  | invalidUnicodeEscapeSequence (written : String)
  | unbalancedClosingBrace
  | expectedInlineExpression
  deriving DecidableEq, Repr, Inhabited

/-- A token as a message shows it: a line end as backslash and `n`, a quote behind a backslash. -/
def shownToken : Char → String
  | '\n' => "\\n"
  | '"' => "\\\""
  | c => c.toString

def SyntaxCause.message : SyntaxCause → String
  | .expectedEntry => "Expected an entry start"
  | .expectedToken t => "Expected token: \"" ++ shownToken t ++ "\""
  | .expectedCharRange r => "Expected a character from range: \"" ++ r.text ++ "\""
  | .expectedMessageField id => "Expected message \"" ++ id ++ "\" to have a value or attributes"
  | .expectedTermField id => "Expected term \"-" ++ id ++ "\" to have a value"
  | .missingValue => "Expected value"
  | .forbiddenCallee name => "Invalid function name: " ++ name
  | .missingLiteral => "Expected a string or number literal"
  | .forbiddenKey => "Keyword cannot be used as an argument name"
  | .missingVariants => "Expected at least one variant after \"->\""
  | .missingDefaultVariant => "Expected one of the variants to be marked as default (*)"
  | .multipleDefaultVariants => "A select expression can only have one default variant"
  | .messageReferenceAsSelector => "Message references cannot be used as selectors"
  | .termReferenceAsSelector => "Terms cannot be used as selectors"
  | .messageAttributeAsSelector => "Attributes of messages cannot be used as selectors"
  | .termAttributeAsPlaceable => "Attributes of terms cannot be used as placeables"
  | .expectedSimpleExpressionAsSelector => "Expected simple expression as selector"
  | .unterminatedStringLiteral => "Unterminated string literal"
  | .positionalArgumentFollowsNamed => "Positional arguments must not follow named arguments"
  | .duplicatedNamedArgument name => "The \"" ++ name ++ "\" argument appears twice"
  | .unknownEscapeSequence c => "Unknown escape sequence: \\" ++ c.toString
  | .invalidUnicodeEscapeSequence written => "Invalid Unicode escape sequence: " ++ written
  | .unbalancedClosingBrace => "Unbalanced closing brace in text"
  | .expectedInlineExpression => "Expected an inline expression"

structure SyntaxError where
  cause : SyntaxCause
  span : Span
  deriving DecidableEq, Repr, Inhabited

def SyntaxError.message (e : SyntaxError) : String := e.cause.message

end MessageLint
