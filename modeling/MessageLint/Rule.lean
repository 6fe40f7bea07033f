-- SUMMARY: The catalogue of rules: codes, names, descriptions and categories.
import MessageLint.Text.WhiteSpace

/-!
# Rules

There are twenty rules in four categories. Configuration files, filters and reports name a rule by
its code (`RC01`, in any case) or by its name (`resource-comment-placement`).
-/

namespace MessageLint

inductive RuleCategory where
  /-- Where comments on files and groups stand, and the blank lines around them. -/
  | comments
  /-- Format, length and uniqueness of identifiers. -/
  | identifiers
  /-- Features of the format that a project may not support. -/
  | features
  /-- Typography of the visible text. -/
  | text
  deriving DecidableEq, Repr, Inhabited

inductive Rule where
  | resourceCommentPlacement
  | resourceCommentBlankAfter
  | resourceCommentBlankBefore
  | groupCommentAtEnd
  | groupCommentBlankAfter
  | groupCommentBlankBefore
  | groupCommentWithoutMessage
  | duplicateIdentifier
  | identifierFormat
  | identifierLength
  | unsupportedTerms
  | unsupportedMessageReferences
  | unsupportedTermReferences
  | unsupportedVariants
  | unsupportedAttributes
  | straightApostrophe
  | wrongCurlyApostrophe
  | straightSingleQuotes
  | straightDoubleQuotes
  | threeDotEllipsis
  deriving DecidableEq, Repr, Inhabited

namespace Rule

/-- Every rule, in the order of the codes. -/
def all : List Rule :=
  [.resourceCommentPlacement, .resourceCommentBlankAfter, .resourceCommentBlankBefore,
    .groupCommentAtEnd, .groupCommentBlankAfter, .groupCommentBlankBefore,
    .groupCommentWithoutMessage, .duplicateIdentifier, .identifierFormat, .identifierLength,
    .unsupportedTerms, .unsupportedMessageReferences, .unsupportedTermReferences,
    .unsupportedVariants, .unsupportedAttributes, .straightApostrophe, .wrongCurlyApostrophe,
    .straightSingleQuotes, .straightDoubleQuotes, .threeDotEllipsis]

def code : Rule → String
  | resourceCommentPlacement => "RC01"
  | resourceCommentBlankAfter => "RC02"
  | resourceCommentBlankBefore => "RC03"
  | groupCommentAtEnd => "GC01"
  | groupCommentBlankAfter => "GC02"
  | groupCommentBlankBefore => "GC03"
  | groupCommentWithoutMessage => "GC04"
  | duplicateIdentifier => "MI01"
  | identifierFormat => "ID01"
  | identifierLength => "ID02"
  | unsupportedTerms => "SY01"
  | unsupportedMessageReferences => "SY02"
  | unsupportedTermReferences => "SY03"
  | unsupportedVariants => "SY04"
  | unsupportedAttributes => "SY05"
  | straightApostrophe => "TE01"
  | wrongCurlyApostrophe => "TE02"
  | straightSingleQuotes => "TE03"
  | straightDoubleQuotes => "TE04"
  | threeDotEllipsis => "TE05"

def name : Rule → String
  | resourceCommentPlacement => "resource-comment-placement"
  | resourceCommentBlankAfter => "resource-comment-blank-after"
  | resourceCommentBlankBefore => "resource-comment-blank-before"
  | groupCommentAtEnd => "group-comment-at-end"
  | groupCommentBlankAfter => "group-comment-blank-after"
  | groupCommentBlankBefore => "group-comment-blank-before"
  | groupCommentWithoutMessage => "group-comment-without-message"
  | duplicateIdentifier => "duplicate-identifier"
  | identifierFormat => "identifier-format"
  | identifierLength => "identifier-length"
  | unsupportedTerms => "unsupported-terms"
  | unsupportedMessageReferences => "unsupported-message-references"
  | unsupportedTermReferences => "unsupported-term-references"
  | unsupportedVariants => "unsupported-variants"
  | unsupportedAttributes => "unsupported-attributes"
  | straightApostrophe => "straight-apostrophe"
  | wrongCurlyApostrophe => "wrong-curly-apostrophe"
  | straightSingleQuotes => "straight-single-quotes"
  | straightDoubleQuotes => "straight-double-quotes"
  | threeDotEllipsis => "three-dot-ellipsis"

def description : Rule → String
  | resourceCommentPlacement => "Resource comments (###) belong at the top of the file"
  | resourceCommentBlankAfter => "Resource comments (###) are followed by one empty line"
  | resourceCommentBlankBefore => "Resource comments (###) are preceded by one empty line"
  | groupCommentAtEnd => "Only an empty group comment (##) may end the file"
  | groupCommentBlankAfter => "Group comments (##) are followed by one empty line"
  | groupCommentBlankBefore => "Group comments (##) are preceded by one empty line"
  | groupCommentWithoutMessage => "Group comments (##) are followed by at least one message"
  | duplicateIdentifier => "Message and term identifiers are unique within a file"
  | identifierFormat => "Identifiers only contain lowercase letters, digits and -"
  | identifierLength => "Identifiers have a minimum length"
  | unsupportedTerms => "Forbids term definitions"
  | unsupportedMessageReferences => "Forbids message references"
  | unsupportedTermReferences => "Forbids term references"
  | unsupportedVariants => "Forbids select expressions with variants"
  | unsupportedAttributes => "Forbids attributes"
  | straightApostrophe => "Apostrophes use \u2019 instead of '"
  | wrongCurlyApostrophe => "Apostrophes use \u2019 instead of \u2018"
  | straightSingleQuotes => "Single quotes use \u2018\u2019 instead of ''"
  | straightDoubleQuotes => "Double quotes use \u201c\u201d instead of \"\""
  | threeDotEllipsis => "Ellipses use \u2026 instead of ..."

def category : Rule → RuleCategory
  | resourceCommentPlacement | resourceCommentBlankAfter | resourceCommentBlankBefore
  | groupCommentAtEnd | groupCommentBlankAfter | groupCommentBlankBefore
  | groupCommentWithoutMessage => .comments
  | duplicateIdentifier | identifierFormat | identifierLength => .identifiers
  | unsupportedTerms | unsupportedMessageReferences | unsupportedTermReferences
  | unsupportedVariants | unsupportedAttributes => .features
  | straightApostrophe | wrongCurlyApostrophe | straightSingleQuotes | straightDoubleQuotes
  | threeDotEllipsis => .text

-- ---------------------------------------------------------------------------
-- Naming a rule
-- ---------------------------------------------------------------------------

/-- Whether two texts are equal up to the case of ASCII letters. -/
def equalIgnoringCase (a b : String) : Bool :=
  a.toList.map Char.toLower == b.toList.map Char.toLower

/-- Whether a trimmed text names the rule: its code in any case, or its exact name. -/
def isNamed (rule : Rule) (text : String) : Bool :=
  equalIgnoringCase rule.code text || rule.name == text

end Rule

/-- A text that names no rule. -/
structure UnknownRule where
  text : String
  deriving DecidableEq, Repr

def UnknownRule.message (e : UnknownRule) : String := "unknown rule: " ++ e.text

/-- The rule that a text names, white space around it aside. -/
def Rule.ofText (text : String) : Except UnknownRule Rule :=
  let trimmed := trimWhiteSpace text
  match all.find? (·.isNamed trimmed) with
  | some rule => .ok rule
  | none => .error ⟨trimmed⟩

end MessageLint
