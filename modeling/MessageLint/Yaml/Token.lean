-- SUMMARY: The tokens of YAML, and those that are read by themselves: anchors, tags and directives.
import MessageLint.Yaml.Scalar

/-!
# Tokens

A YAML text is a sequence of tokens. Here are their type and the readers of those whose meaning does
not depend on the lines around them. Each reader stands at the first character of its token and
answers the token and the cursor behind it, or nothing where it is malformed.
-/

namespace MessageLint.Yaml

inductive Token where
  /-- The version that a document is written in. -/
  | version (major minor : Nat)
  /-- An abbreviation for the front of tags. -/
  | tagHandle (handle front : List Char)
  | documentStart
  | documentEnd
  | blockSequence
  | blockMapping
  | blockEnd
  | flowSequence
  | flowSequenceEnd
  | flowMapping
  | flowMappingEnd
  /-- The dash in front of an item of a block. -/
  | item
  /-- The comma behind an item within brackets. -/
  | comma
  | key
  | value
  | alias (name : List Char)
  | anchor (name : List Char)
  | tag (handle suffix : List Char)
  | scalar (text : List Char) (style : ScalarStyle)
  | textEnd
  deriving DecidableEq, Repr, Inhabited

/-- A character of an anchor, a handle or a directive's name. -/
def isNameChar (c : Char) : Bool := c.isAlphanum || c = '_' || c = '-'

-- ---------------------------------------------------------------------------
-- Anchors and aliases
-- ---------------------------------------------------------------------------

/-- The name behind the `&` or `*` that stands here. -/
def anchorName (c : Cursor) : Option (List Char × Cursor) :=
  let c := c.advance 1
  let name := c.rest.takeWhile isNameChar
  let c := c.advance name.length
  let isClosed := atGap c.rest ||
    c.rest.head?.any fun d => ['?', ':', ',', ']', '}', '%', '@', '\x60'].contains d
  if name.isEmpty || !isClosed then none else some (name, c)

-- ---------------------------------------------------------------------------
-- Tags
-- ---------------------------------------------------------------------------

/-- A character of a tag. Between angle brackets there may be commas and square brackets as well. -/
def isTagChar (isVerbatim : Bool) (c : Char) : Bool :=
  isNameChar c || ";/?:@&=+$.%!~*'()".contains c || (isVerbatim && [',', '[', ']'].contains c)

/-- The byte that `%` and two hexadecimal digits stand for. -/
def escapedByte? : List Char → Option Nat
  | '%' :: a :: b :: _ => do return 16 * (← hexDigit? a) + (← hexDigit? b)
  | _ => none

/-- The number of bytes of a character whose first byte this is. -/
def sequenceLength? (byte : Nat) : Option Nat :=
  if byte < 0x80 then some 1
  else if byte < 0xc0 then none
  else if byte < 0xe0 then some 2
  else if byte < 0xf0 then some 3
  else if byte < 0xf8 then some 4
  else none

/-- The part of a tag that stands here, with escaped bytes as characters of the same number.
`pending` counts the escaped bytes that the character begun before still needs. -/
def tagTextFrom (isVerbatim : Bool) (pending : Nat) (text : List Char) :
    Option (List Char × Nat) :=
  match text with
  | '%' :: r =>
    match escapedByte? ('%' :: r) with
    | none => none
    | some byte =>
      let pending? :=
        if pending = 0 then (sequenceLength? byte).map (· - 1)
        else if 0x80 ≤ byte && byte < 0xc0 then some (pending - 1)
        else none
      match pending? with
      | none => none
      | some pending =>
        (tagTextFrom isVerbatim pending (r.drop 2)).map fun (cs, n) =>
          (Char.ofNat byte :: cs, n + 3)
  | c :: r =>
    if 0 < pending then
      none
    else if isTagChar isVerbatim c then
      (tagTextFrom isVerbatim 0 r).map fun (cs, n) => (c :: cs, n + 1)
    else
      some ([], 0)
  | [] => if 0 < pending then none else some ([], 0)
termination_by text.length
decreasing_by all_goals simp_wf; try omega

/-- A part of a tag; a zero byte ends it. -/
def tagText (isVerbatim : Bool) (c : Cursor) : Option (List Char × Cursor) :=
  (tagTextFrom isVerbatim 0 c.rest).map fun (text, n) =>
    (text.takeWhile (· ≠ '\x00'), c.advance n)

/-- The exclamation mark that stands here, with a name and a second mark if they follow. -/
def tagHandle (c : Cursor) : Option (List Char × Cursor) :=
  match c.rest with
  | '!' :: r =>
    let name := r.takeWhile isNameChar
    let c := c.advance (name.length + 1)
    match c.rest with
    | '!' :: _ => some ('!' :: name ++ ['!'], c.advance 1)
    | _ => some ('!' :: name, c)
  | _ => none

def isNamedHandle (handle : List Char) : Bool := 1 < handle.length && handle.getLast? = some '!'

/-- The tag that stands here. -/
def tag (inFlow : Bool) (c : Cursor) : Option (Token × Cursor) := do
  let (token, next) ←
    match c.rest with
    | '!' :: '<' :: _ => do
      let start := c.advance 2
      let (text, next) ← tagText true start
      match next.rest with
      | '>' :: _ =>
        if next.index = start.index then none else pure (Token.tag [] text, next.advance 1)
      | _ => none
    | _ => do
      let (handle, next) ← tagHandle c
      if isNamedHandle handle then
        let (text, after) ← tagText false next
        if after.index = next.index then none else pure (Token.tag handle text, after)
      else
        let (text, after) ← tagText false next
        match handle.drop 1 ++ text with
        | [] => pure (Token.tag [] ['!'], after)
        | suffix => pure (Token.tag ['!'] suffix, after)
  if atGap next.rest || (inFlow && next.rest.head? = some ',') then
    return (token, next)
  else
    failure

-- ---------------------------------------------------------------------------
-- Directives
-- ---------------------------------------------------------------------------

/-- A number of one to nine digits. -/
def number (c : Cursor) : Option (Nat × Cursor) :=
  let digits := c.rest.takeWhile Char.isDigit
  if digits.isEmpty || 9 < digits.length then
    none
  else
    some (digits.foldl (fun n d => 10 * n + (d.toNat - 48)) 0, c.advance digits.length)

/-- The two numbers of a version. -/
def versionDirective (c : Cursor) : Option (Token × Cursor) := do
  let (major, c) ← number c.skipBlanks
  match c.rest with
  | '.' :: _ =>
    let (minor, c) ← number (c.advance 1)
    return (.version major minor, c)
  | _ => none

/-- A handle and what it abbreviates. -/
def handleDirective (c : Cursor) : Option (Token × Cursor) := do
  let (handle, c) ← tagHandle c.skipBlanks
  if handle.length ≠ 1 && !isNamedHandle handle then
    failure
  if !c.rest.head?.any isBlank then
    failure
  let start := c.skipBlanks
  let (text, next) ← tagText true start
  if next.index = start.index || !atGap next.rest then
    failure
  return (.tagHandle handle text, next)

/-- The directive whose `%` stands here, with its line. -/
def directive (c : Cursor) : Option (Token × Cursor) := do
  let c := c.advance 1
  let name := c.rest.takeWhile isNameChar
  let c := c.advance name.length
  if !atGap c.rest then
    failure
  let (token, c) ←
    if name = ['Y', 'A', 'M', 'L'] then versionDirective c
    else if name = ['T', 'A', 'G'] then handleDirective c
    else none
  let c := c.skipBlanks.skipComment
  if !atLineEnd c.rest then
    failure
  match c.lineEnd? with
  | some (_, next) => return (token, next)
  | none => return (token, c)

end MessageLint.Yaml
