-- SUMMARY: From text to tokens: columns open and close blocks, and a colon makes a key.
import MessageLint.Yaml.Token

/-!
# Layout

Two things make tokens of YAML hang on what is around them. Blocks are opened and closed by columns,
except within brackets. And a key need not be marked in front: a colon behind it makes it one, so
each place where a key may have begun is remembered (`KeyPlace`) until its line ends.

`TokenList.ofText` reads on to the end of the text. Where that is not possible it answers the tokens
that are settled before the fault, since a document may end before it. A character that no text may
hold is met as soon as its stretch of the text is looked into (`readable`).
-/

namespace MessageLint.Yaml

/-- A place where a key may have begun. -/
structure KeyPlace where
  /-- The number of tokens in front of it. -/
  token : Nat
  index : Nat
  line : Nat
  column : Nat
  /-- Whether nothing else may stand here. -/
  isRequired : Bool
  deriving DecidableEq, Repr, Inhabited

/-- Whether a colon at the cursor comes too late: a key takes one line and 1024 bytes. -/
def KeyPlace.isStale (k : KeyPlace) (c : Cursor) : Bool :=
  k.line < c.line || k.index + 1024 < c.index

/-- How far a text is read. -/
structure Layout where
  cursor : Cursor
  /-- Whether nothing follows what the cursor holds; else what follows cannot be read. -/
  isWhole : Bool
  tokens : Array Token
  /-- The column of the innermost block; -1 outside of all. -/
  indent : Int
  outerIndents : List Int
  /-- Whether a key may begin at the cursor without a mark. -/
  keyAllowed : Bool
  keyPlace : Option KeyPlace
  /-- The places remembered outside each open bracket, innermost first. -/
  outerPlaces : List (Option KeyPlace)

namespace Layout

def ofText (text : List Char) (isWhole : Bool) : Layout :=
  ⟨.ofText text, isWhole, #[], -1, [], true, none, []⟩

/-- Whether a bracket is open. -/
def inFlow (s : Layout) : Bool := !s.outerPlaces.isEmpty

def push (s : Layout) (t : Token) : Layout := { s with tokens := s.tokens.push t }

/-- Adds the token of a mark that is `n` characters long. -/
def pushMark (s : Layout) (t : Token) (n : Nat) : Layout :=
  { s.push t with cursor := s.cursor.advance n }

/-- Adds a token that ends at a cursor. -/
def pushTo (s : Layout) (t : Token) (c : Cursor) : Layout := { s.push t with cursor := c }

-- ---------------------------------------------------------------------------
-- Keys
-- ---------------------------------------------------------------------------

/-- Gives up the remembered place; a required key must not be missing. -/
def dropKey (s : Layout) : Option Layout :=
  if s.keyPlace.any (·.isRequired) then none else some { s with keyPlace := none }

/-- Remembers the cursor as a place where a key may begin, if one may. -/
def saveKey (s : Layout) : Option Layout :=
  if s.keyAllowed then
    let c := s.cursor
    s.dropKey.map fun s =>
      { s with keyPlace := some ⟨s.tokens.size, c.index, c.line, c.column,
          !s.inFlow && s.indent = (c.column : Int)⟩ }
  else
    some s

/-- Gives up all places that a colon would come too late for. -/
def dropStaleKeys (s : Layout) : Option Layout :=
  let isStale (k : KeyPlace) := k.isStale s.cursor
  let fresh (place : Option KeyPlace) := place.filter (!isStale ·)
  if (s.keyPlace :: s.outerPlaces).any (·.any fun k => isStale k && k.isRequired) then
    none
  else
    some { s with keyPlace := fresh s.keyPlace, outerPlaces := s.outerPlaces.map fresh }

/-- The tokens in front of which no key can appear any more. -/
def settled (s : Layout) : List Token :=
  let places := (s.keyPlace :: s.outerPlaces).filterMap fun place =>
    (place.filter (!·.isStale s.cursor)).map (·.token)
  s.tokens.toList.take (places.foldl min s.tokens.size)

-- ---------------------------------------------------------------------------
-- Blocks
-- ---------------------------------------------------------------------------

/-- Closes the blocks at the columns in `indents` that lie to the right of `column`. -/
def closeFrom (column : Int) (s : Layout) : (indents : List Int) → Layout
  | [] => s
  | outer :: indents =>
    if column < s.indent then
      closeFrom column { s.push .blockEnd with indent := outer, outerIndents := indents } indents
    else
      s

/-- Closes the blocks to the right of `column`. -/
def closeBlocks (s : Layout) (column : Int) : Layout :=
  if s.inFlow then s else s.closeFrom column s.outerIndents

/-- Opens a block at `column` with a token at the given position, unless one is open there. -/
def openBlock (s : Layout) (column position : Nat) (t : Token) : Layout :=
  if s.inFlow || (column : Int) ≤ s.indent then
    s
  else
    { s with
      tokens := s.tokens.insertIdxIfInBounds position t
      indent := column
      outerIndents := s.indent :: s.outerIndents }

/-- Opens a block at the cursor, where outside of brackets a key must be allowed. -/
def openHere (s : Layout) (t : Token) : Option Layout :=
  if !s.inFlow && !s.keyAllowed then
    none
  else
    some (s.openBlock s.cursor.column s.tokens.size t)

-- ---------------------------------------------------------------------------
-- Marks
-- ---------------------------------------------------------------------------

/-- Moves over blanks, comments and line ends. At the start of a line a mark of byte order is passed
over, which takes a column, and outside of brackets a tab is not a blank there. -/
def toNextToken (s : Layout) : (fuel : Nat) → Layout
  | 0 => s
  | fuel + 1 =>
    let c :=
      if s.cursor.column = 0 && s.cursor.rest.head? = some '\ufeff' then s.cursor.advance 1
      else s.cursor
    let tabs := s.inFlow || !s.keyAllowed
    let c := (c.skipWhile fun d => d = ' ' || (tabs && d = '\t')).skipComment
    match c.lineEnd? with
    | some (_, next) =>
      toNextToken { s with cursor := next, keyAllowed := !s.inFlow || s.keyAllowed } fuel
    | none => { s with cursor := c }

def textEnd (s : Layout) : Option Layout :=
  (s.closeBlocks (-1)).dropKey.map fun s => { s.push .textEnd with keyAllowed := false }

def documentMark (s : Layout) (t : Token) : Option Layout :=
  (s.closeBlocks (-1)).dropKey.map fun s => { s.pushMark t 3 with keyAllowed := false }

def readDirective (s : Layout) : Option Layout := do
  let s ← (s.closeBlocks (-1)).dropKey
  let (t, c) ← directive s.cursor
  return { s.pushTo t c with keyAllowed := false }

def openBracket (s : Layout) (t : Token) : Option Layout :=
  s.saveKey.map fun s =>
    { s.pushMark t 1 with
      keyAllowed := true, keyPlace := none, outerPlaces := s.keyPlace :: s.outerPlaces }

def closeBracket (s : Layout) (t : Token) : Option Layout :=
  s.dropKey.map fun s =>
    let s := { s.pushMark t 1 with keyAllowed := false }
    match s.outerPlaces with
    | place :: places => { s with keyPlace := place, outerPlaces := places }
    | [] => s

def comma (s : Layout) : Option Layout :=
  s.dropKey.map fun s => { s.pushMark .comma 1 with keyAllowed := true }

def item (s : Layout) : Option Layout := do
  let s ← s.openHere .blockSequence
  let s ← s.dropKey
  return { s.pushMark .item 1 with keyAllowed := true }

def key (s : Layout) : Option Layout := do
  let s ← s.openHere .blockMapping
  let s ← s.dropKey
  return { s.pushMark .key 1 with keyAllowed := !s.inFlow }

/-- A colon makes what stands at the remembered place a key; without such a place the key is
empty. -/
def value (s : Layout) : Option Layout :=
  match s.keyPlace with
  | some k =>
    let s := { s with tokens := s.tokens.insertIdxIfInBounds k.token .key }
    let s := s.openBlock k.column k.token .blockMapping
    some { s.pushMark .value 1 with keyAllowed := false, keyPlace := none }
  | none =>
    (s.openHere .blockMapping).map fun s =>
      { s.pushMark .value 1 with keyAllowed := !s.inFlow }

-- ---------------------------------------------------------------------------
-- Content
-- ---------------------------------------------------------------------------

/-- Adds a token that a key may begin with. -/
def content (s : Layout) (read : Cursor → Option (Token × Cursor)) : Option Layout := do
  let s ← s.saveKey
  let (t, c) ← read s.cursor
  return { s.pushTo t c with keyAllowed := false }

def readPlain (s : Layout) : Option Layout := do
  let s ← s.saveKey
  let (text, endsLine, c) ← plain s.inFlow (s.indent + 1).toNat s.cursor
  return { s.pushTo (.scalar text .plain) c with keyAllowed := endsLine }

def readBlock (s : Layout) : Option Layout := do
  let s ← s.dropKey
  let (text, style, c) ← block s.indent s.cursor
  return { s.pushTo (.scalar text style) c with keyAllowed := true }

-- ---------------------------------------------------------------------------
-- All tokens
-- ---------------------------------------------------------------------------

/-- Reads the token at the cursor, with those that a change of column brings. -/
def token (s : Layout) : Option Layout :=
  let c := s.cursor
  let s := s.closeBlocks c.column
  match c.rest with
  | [] => s.textEnd
  | first :: rest =>
    if c.column = 0 && first = '%' then s.readDirective
    else if c.atDocumentMark then
      s.documentMark (if first = '-' then .documentStart else .documentEnd)
    else
      match first with
      | '[' => s.openBracket .flowSequence
      | ']' => s.closeBracket .flowSequenceEnd
      | '{' => s.openBracket .flowMapping
      | '}' => s.closeBracket .flowMappingEnd
      | ',' => s.comma
      | '-' => if atGap rest then s.item else s.readPlain
      | '?' => if s.inFlow || atGap rest then s.key else s.readPlain
      | ':' => if s.inFlow || atGap rest then s.value else s.readPlain
      | '*' => s.content fun c => (anchorName c).map fun (name, c) => (.alias name, c)
      | '&' => s.content fun c => (anchorName c).map fun (name, c) => (.anchor name, c)
      | '!' => s.content (tag s.inFlow)
      | '\'' | '"' =>
        s.content fun c => (quoted first c).map fun (text, c) => (.scalar text .quoted, c)
      | '|' | '>' => if s.inFlow then none else s.readBlock
      | '#' | '%' | '@' | '\x60' | ' ' | '\t' => none
      | _ => s.readPlain

/-- Whether there are `n` characters at the cursor to look at, of which those behind the end of the
text count as there. -/
def canSee (s : Layout) (n : Nat) : Bool := s.isWhole || n ≤ (s.cursor.rest.take n).length

/-- Reads the next token. It takes four characters to tell its kind, and one to tell its end. -/
def step (s : Layout) : Option Layout := do
  let s ← (s.toNextToken (s.cursor.rest.length + 1)).dropStaleKeys
  if !s.canSee 4 then
    failure
  let next ← s.token
  if next.canSee 1 then return next else failure

end Layout

-- ---------------------------------------------------------------------------
-- Stretches
-- ---------------------------------------------------------------------------

/-- The number of bytes of a stretch. -/
def stretchBytes : Nat := 16384

/-- The number of characters in front of the first stretch with a character that is not allowed. A
stretch is as many characters as its bytes hold; `start` are in front of the one that is looked at,
of which `count` characters and `size` bytes are seen. -/
def readableFrom (start count size : Nat) : List Char → Option Nat
  | [] => none
  | c :: cs =>
    if size + c.utf8Size ≤ stretchBytes then
      if isAllowed c then readableFrom start (count + 1) (size + c.utf8Size) cs else some start
    else
      if isAllowed c then readableFrom (start + count) 1 c.utf8Size cs else some (start + count)

/-- How much of a text can be read: the stretches in front of a character that is not allowed, if
there is one. -/
def readable (text : List Char) : Option Nat := readableFrom 0 0 0 text

/-- The tokens of a text, as far as they can be read. -/
structure TokenList where
  tokens : List Token
  isComplete : Bool
  deriving Repr, Inhabited

namespace TokenList

/-- Reads on; each token takes a character, so the length of the text is fuel enough. -/
def readFrom (s : Layout) : (fuel : Nat) → TokenList
  | 0 => ⟨s.settled, false⟩
  | fuel + 1 =>
    match s.step with
    | none => ⟨s.settled, false⟩
    | some next =>
      if next.tokens.back? = some .textEnd then ⟨next.tokens.toList, true⟩
      else readFrom next fuel

/-- The tokens of a text. -/
def ofText (text : List Char) : TokenList :=
  let start :=
    match readable text with
    | none => Layout.ofText text true
    | some n => Layout.ofText (text.take n) false
  readFrom start (text.length + 1)

end TokenList

end MessageLint.Yaml
