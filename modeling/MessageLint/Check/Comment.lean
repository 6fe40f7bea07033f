-- SUMMARY: Where comments on files and groups stand, and the blank lines around them.
import MessageLint.Resource
import MessageLint.Source
import MessageLint.Check.Finding

/-!
# Comments on files and groups

A comment on the whole file comes before all messages and terms; a comment on a group comes before a
message or term of its own. Both have one blank line on either side. A comment breaks at most one
rule: the first that applies in the order below.
-/

namespace MessageLint

namespace Comment

/-- Whether exactly one blank line stands behind the comment. -/
def blankAfter (src : Source) (c : Comment) : Bool := src.lineEndsAfter c.span.stop == 2

/-- Whether the comment opens the file or exactly one blank line stands before it. -/
def blankBefore (src : Source) (c : Comment) : Bool :=
  c.span.start == 0 || src.lineEndsBefore c.span.start == 2

/-- The rule that a comment on the file breaks. At the end of the file its spacing is free. -/
def resourceFault? (src : Source) (afterDefinition isLast : Bool) (c : Comment) : Option Rule :=
  if afterDefinition then some .resourceCommentPlacement
  else if isLast then none
  else if !c.blankAfter src then some .resourceCommentBlankAfter
  else if !c.blankBefore src then some .resourceCommentBlankBefore
  else none

/-- The rule that a comment on a group breaks. An empty one may end the file. -/
def groupFault? (src : Source) (afterOpenGroup isLast : Bool) (c : Comment) : Option Rule :=
  if afterOpenGroup then some .groupCommentWithoutMessage
  else if isLast then if c.content.isEmpty then none else some .groupCommentAtEnd
  else if !c.blankAfter src then some .groupCommentBlankAfter
  else if !c.blankBefore src then some .groupCommentBlankBefore
  else none

end Comment

end MessageLint
