-- SUMMARY: What a check finds, and how it is worded.
import MessageLint.Rule
import MessageLint.Span

/-!
# Findings

A finding names the rule that is broken and the span that breaks it. All wording is in
`Finding.message`.
-/

namespace MessageLint

structure Finding where
  rule : Rule
  span : Span
  /-- What the message speaks of, where its wording depends on it: an identifier or a length. -/
  subject : String := ""
  deriving DecidableEq, Repr, Inhabited

def Finding.message (f : Finding) : String :=
  match f.rule with
  | .resourceCommentPlacement =>
    "Resource comments (###) should be placed at the top of the file, just after the license " ++
      "header. There should only be one resource comment per file."
  | .resourceCommentBlankAfter => "Resource comments (###) should be followed by one empty line."
  | .resourceCommentBlankBefore => "Resource comments (###) should have one empty line above them."
  | .groupCommentAtEnd =>
    "Group comments (##) should not be at the end of the file, they should always be above a " ++
      "message. Only an empty group comment is allowed at the end of a file."
  | .groupCommentBlankAfter => "Group comments (##) should be followed by one empty line."
  | .groupCommentBlankBefore => "Group comments (##) should have an empty line before them."
  | .groupCommentWithoutMessage =>
    "Group comments (##) must be followed by at least one message. Make sure that a single " ++
      "group comment with multiple paragraphs is not separated by whitespace, as it will be " ++
      "interpreted as two different comments."
  | .duplicateIdentifier =>
    "Identifier " ++ f.subject ++ " is present more than once in the file."
  | .identifierFormat => "Identifiers may only contain lowercase characters and -"
  | .identifierLength => "Identifiers must be at least " ++ f.subject ++ " characters long"
  | .unsupportedTerms | .unsupportedTermReferences => "Terms are not supported."
  | .unsupportedMessageReferences => "Message references are not supported."
  | .unsupportedVariants => "Variants are not supported."
  | .unsupportedAttributes => "Attributes are not supported."
  | .straightApostrophe => "Strings with apostrophes should use foo\u2019s instead of foo's."
  | .wrongCurlyApostrophe =>
    "Strings with apostrophes should use foo\u2019s instead of foo\u2018s."
  | .straightSingleQuotes =>
    "Single-quoted strings should use Unicode \u2018foo\u2019 instead of 'foo'."
  | .straightDoubleQuotes =>
    "Double-quoted strings should use Unicode \u201cfoo\u201d instead of \"foo\"."
  | .threeDotEllipsis =>
    "Strings with an ellipsis should use the Unicode \u2026 character instead of three periods"

end MessageLint
