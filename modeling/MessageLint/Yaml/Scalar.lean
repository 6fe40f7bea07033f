-- SUMMARY: The text of scalars: plain, quoted, literal and folded.
import MessageLint.Text.Digits
import MessageLint.Yaml.Cursor

/-!
# Scalars

Each function stands at the first character of a scalar and answers its text and the cursor behind
it, or nothing where the scalar is malformed. `indent` is the least column at which a scalar of the
block that is open may go on.
-/

namespace MessageLint.Yaml

inductive ScalarStyle where
  | plain
  | quoted
  | literal
  | folded
  deriving DecidableEq, Repr, Inhabited

-- ---------------------------------------------------------------------------
-- Plain scalars
-- ---------------------------------------------------------------------------

/-- The brackets and the comma that separate items within brackets. -/
def isFlowMark (c : Char) : Bool := [',', '[', ']', '{', '}'].contains c

/-- The characters up to a gap or a mark that ends a plain scalar. Within brackets a colon must not
touch another mark. -/
def plainWord (inFlow : Bool) : List Char → Option (List Char)
  | [] => some []
  | c :: r =>
    if isBlank c || isLineEnd c || (c = ':' && atGap r) || (inFlow && isFlowMark c) then
      some []
    else if inFlow && c = ':' && r.head?.any (fun d => d = '?' || isFlowMark d) then
      none
    else
      (plainWord inFlow r).map (c :: ·)

/-- Reads on in a plain scalar behind the gap `before`. Besides the text, says whether the scalar
ends with a line. -/
def plainFrom (inFlow : Bool) (indent : Nat) (before : Gap) :
    (fuel : Nat) → Cursor → Option (List Char × Bool × Cursor)
  | 0, _ => none
  | fuel + 1, c =>
    if c.atDocumentMark || c.rest.head? = some '#' then
      some ([], before.hasLineEnd, c)
    else do
      let word ← plainWord inFlow c.rest
      if word.isEmpty then
        return ([], before.hasLineEnd, c)
      let c := c.advance word.length
      let (gap, next) ← c.gap indent
      if next.index = c.index then
        return (before.text ++ word, false, next)
      if !inFlow && next.column < indent then
        return (before.text ++ word, gap.hasLineEnd, next)
      let (text, endsLine, after) ← plainFrom inFlow indent gap fuel next
      return (before.text ++ word ++ text, endsLine, after)

def plain (inFlow : Bool) (indent : Nat) (c : Cursor) : Option (List Char × Bool × Cursor) :=
  plainFrom inFlow indent (.blanks []) (c.rest.length + 1) c

-- ---------------------------------------------------------------------------
-- Quoted scalars
-- ---------------------------------------------------------------------------

/-- What follows a backslash: the character meant and the number of characters that mean it. -/
def escape? : List Char → Option (Char × Nat)
  | '0' :: _ => some ('\x00', 1)
  | 'a' :: _ => some ('\x07', 1)
  | 'b' :: _ => some ('\x08', 1)
  | 't' :: _ | '\t' :: _ => some ('\t', 1)
  | 'n' :: _ => some ('\n', 1)
  | 'v' :: _ => some ('\x0b', 1)
  | 'f' :: _ => some ('\x0c', 1)
  | 'r' :: _ => some ('\r', 1)
  | 'e' :: _ => some ('\x1b', 1)
  | ' ' :: _ => some (' ', 1)
  | '"' :: _ => some ('"', 1)
  | '/' :: _ => some ('/', 1)
  | '\\' :: _ => some ('\\', 1)
  | 'N' :: _ => some ('\x85', 1)
  | '_' :: _ => some ('\xa0', 1)
  | 'L' :: _ => some ('\u2028', 1)
  | 'P' :: _ => some ('\u2029', 1)
  | 'x' :: r => (numberedChar? 2 r).map (·, 3)
  | 'u' :: r => (numberedChar? 4 r).map (·, 5)
  | 'U' :: r => (numberedChar? 8 r).map (·, 9)
  | _ => none

/-- The text up to a gap, the closing quote or an escaped line end, and its length as written. In
single quotes a quote is written twice; in double quotes there are escapes. -/
def quotedWord (quote : Char) (text : List Char) : Option (List Char × Nat) :=
  match text with
  | [] => some ([], 0)
  | c :: r =>
    if isBlank c || isLineEnd c then
      some ([], 0)
    else if quote = '\'' && c = '\'' then
      match r with
      | '\'' :: r' => (quotedWord quote r').map fun (word, n) => ('\'' :: word, n + 2)
      | _ => some ([], 0)
    else if c = quote || (quote = '"' && c = '\\' && r.head?.any isLineEnd) then
      some ([], 0)
    else if quote = '"' && c = '\\' then
      match escape? r with
      | some (d, k) => (quotedWord quote (r.drop k)).map fun (word, n) => (d :: word, n + k + 1)
      | none => none
    else
      (quotedWord quote r).map fun (word, n) => (c :: word, n + 1)
termination_by text.length
decreasing_by all_goals simp_wf; try omega

/-- Reads on in a quoted scalar up to its closing quote. -/
def quotedFrom (quote : Char) : (fuel : Nat) → Cursor → Option (List Char × Cursor)
  | 0, _ => none
  | fuel + 1, c => do
    if c.atDocumentMark then
      failure
    let (word, n) ← quotedWord quote c.rest
    let c := c.advance n
    match c.rest with
    | [] => none
    | d :: _ =>
      if d = quote then
        return (word, c.advance 1)
      let (gap, next) ←
        if d = '\\' then do
          let (_, next) ← (c.advance 1).lineEnd?
          let (more, after) ← next.moreLineEnds 0
          pure (Gap.lines none more, after)
        else
          c.gap 0
      let (text, after) ← quotedFrom quote fuel next
      return (word ++ gap.text ++ text, after)

/-- The scalar whose opening quote stands here. -/
def quoted (quote : Char) (c : Cursor) : Option (List Char × Cursor) :=
  quotedFrom quote (c.rest.length + 1) (c.advance 1)

-- ---------------------------------------------------------------------------
-- Literal and folded scalars
-- ---------------------------------------------------------------------------

/-- What becomes of the line ends that close a literal or folded scalar. -/
inductive Chomping where
  /-- The first stays. -/
  | clip
  | strip
  | keep
  deriving DecidableEq, Repr, Inhabited

/-- What follows the `|` or `>`, on its line. -/
structure BlockHeader where
  chomping : Chomping
  /-- How much deeper than its block the scalar stands, if that is given. -/
  increment : Option Nat
  deriving DecidableEq, Repr, Inhabited

namespace BlockHeader

def chomping? (c : Cursor) : Option (Chomping × Cursor) :=
  match c.rest with
  | '+' :: _ => some (.keep, c.advance 1)
  | '-' :: _ => some (.strip, c.advance 1)
  | _ => none

/-- The digit that stands here, if there is one; zero is refused. -/
def increment? (c : Cursor) : Option (Option Nat × Cursor) :=
  match c.rest with
  | '0' :: _ => none
  | d :: _ => if d.isDigit then some (some (d.toNat - 48), c.advance 1) else some (none, c)
  | [] => some (none, c)

/-- The header in front of the cursor, with blanks, a comment and the line end behind it. -/
def read (c : Cursor) : Option (BlockHeader × Cursor) := do
  let (header, c) ←
    match chomping? c with
    | some (chomping, c) => (increment? c).map fun (n, c) => (BlockHeader.mk chomping n, c)
    | none =>
      match increment? c with
      | none => none
      | some (n, c) =>
        match n, chomping? c with
        | some _, some (chomping, c) => some (BlockHeader.mk chomping n, c)
        | _, _ => some (BlockHeader.mk .clip n, c)
  let c := c.skipBlanks.skipComment
  if !atLineEnd c.rest then
    failure
  match c.lineEnd? with
  | some (_, next) => return (header, next)
  | none => return (header, c)

end BlockHeader

/-- Moves over empty lines and the indentation of the line behind them. The indentation goes up to
column `indent`, or as far as there are spaces; a tab must not stand in it. The largest column
reached is answered too. -/
def emptyLines (indent : Option Nat) :
    (fuel : Nat) → Cursor → Option (List Char × Nat × Cursor)
  | 0, _ => none
  | fuel + 1, c => do
    let spaces := (c.rest.takeWhile (· = ' ')).length
    let c := c.advance (match indent with
      | some n => min spaces (n - c.column)
      | none => spaces)
    if c.rest.head? = some '\t' && indent.all (c.column < ·) then
      failure
    match c.lineEnd? with
    | some (e, next) =>
      let (es, widest, after) ← emptyLines indent fuel next
      return (e :: es, max c.column widest, after)
    | none => return ([], c.column, c)

/-- What a literal or folded scalar ends with. -/
structure BlockTail where
  text : List Char
  /-- The end of the last line, if there is one. -/
  last : Option Char
  /-- The ends of empty lines behind it. -/
  empty : List Char
  cursor : Cursor

/-- The lines that stand at column `indent`. `last` is the end of the line before, `empty` the ends
of empty lines behind it, and `blank` says whether the line before began with a blank. -/
def blockLines (isFolded : Bool) (indent : Nat) (last : Option Char) (empty : List Char)
    (blank : Bool) : (fuel : Nat) → Cursor → Option BlockTail
  | 0, _ => none
  | fuel + 1, c => do
    if c.column ≠ indent || c.rest.isEmpty then
      return ⟨[], last, empty, c⟩
    let nowBlank := c.rest.head?.any isBlank
    let joint :=
      if isFolded && last = some '\n' && !blank && !nowBlank then
        if empty.isEmpty then [' '] else []
      else
        last.toList
    let line := c.rest.takeWhile (!isLineEnd ·)
    let c := c.advance line.length
    let (lineEnd, c) :=
      match c.lineEnd? with
      | some (e, next) => (some e, next)
      | none => (none, c)
    let (more, _, c) ← emptyLines (some indent) (c.rest.length + 1) c
    let tail ← blockLines isFolded indent lineEnd more nowBlank fuel c
    return { tail with text := joint ++ empty ++ line ++ tail.text }

/-- The scalar whose `|` or `>` stands here, within a block at column `outer`. -/
def block (outer : Int) (c : Cursor) : Option (List Char × ScalarStyle × Cursor) := do
  let isFolded := c.rest.head? = some '>'
  let (header, c) ← BlockHeader.read (c.advance 1)
  let given := header.increment.map fun n => outer.toNat + n
  let (empty, widest, c) ← emptyLines given (c.rest.length + 1) c
  let indent := given.getD (max widest (max (outer + 1).toNat 1))
  let tail ← blockLines isFolded indent none empty false (c.rest.length + 1) c
  let ending :=
    match header.chomping with
    | .strip => []
    | .clip => tail.last.toList
    | .keep => tail.last.toList ++ tail.empty
  return (tail.text ++ ending, if isFolded then .folded else .literal, tail.cursor)

end MessageLint.Yaml
