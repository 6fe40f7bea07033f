-- SUMMARY: Keys, values and lines of a TOML document.
import MessageLint.Toml.Scalar

/-!
# Documents

A document is read line by line (`Line`), and the lines make up its table (`Entries.ofLines`).
Values nest in brackets and braces up to a limit, which bounds the length of dotted keys too.
-/

namespace MessageLint.Toml

open Scan

/-- Brackets and braces may be nested less deep than this, and dotted keys have fewer parts. -/
def nestingLimit : Nat := 80

def blanks : Scan Unit := discard (run isBlank)

def comment : Scan Unit := do
  mark '#'
  discard (run isPrintable)

/-- What may follow on a line that says something: a comment. -/
def lineRest : Scan Unit := do
  blanks
  discard (optional comment)
  fun text => if text.isEmpty then some ((), []) else lineFeed text

def gapFrom : (fuel : Nat) → Scan Unit
  | 0 => pure ()
  | fuel + 1 => do
    blanks
    let isLine ← optional do
      discard (optional comment)
      lineFeed
    if isLine.isSome then gapFrom fuel

/-- Moves over blanks, line ends, and comments that a line end follows. -/
def gap : Scan Unit := fun text => gapFrom (text.length + 1) text

-- ---------------------------------------------------------------------------
-- Keys
-- ---------------------------------------------------------------------------

def isBareKeyChar (c : Char) : Bool := c.isAlphanum || c = '_' || c = '-'

/-- One part of a key, with blanks around it. -/
def keyPart : Scan (List Char) := do
  blanks
  let part ← shortString <|> do
    let cs ← run isBareKeyChar
    if cs.isEmpty then failure else pure cs
  blanks
  return part

/-- The parts of a key, of which there may be fewer than `limit`. -/
def keyFrom (limit : Nat) : Scan KeyPath := do
  match limit with
  | 0 | 1 => failure
  | limit + 1 =>
    let part ← keyPart
    if ← markIf '.' then return part :: (← keyFrom limit) else return [part]

def key : Scan KeyPath := keyFrom nestingLimit

-- ---------------------------------------------------------------------------
-- Values
-- ---------------------------------------------------------------------------

def word (letters : List Char) (v : Value) : Scan Value := fun text =>
  if letters.isPrefixOf text then some (v, text.drop letters.length) else none

/-- A value that holds no others. -/
def scalar : Scan Value :=
  (Value.text <$> string) <|> word ['t', 'r', 'u', 'e'] (.flag true) <|>
    word ['f', 'a', 'l', 's', 'e'] (.flag false) <|> (dateTime *> pure .dateTime) <|>
    (float *> pure .float) <|> (Value.integer <$> integer)

mutual

/-- A value, with brackets and braces nested less than `depth` deep. -/
def value (depth : Nat) : (fuel : Nat) → Scan Value
  | 0 => failure
  | fuel + 1 => do
    if ← markIf '[' then
      if depth ≤ 1 then failure
      return .array (← arrayItems (depth - 1) fuel)
    else if ← markIf '{' then
      if depth ≤ 1 then failure
      tableInBraces (← tablePairs (depth - 1) true fuel)
    else
      scalar

/-- The items of an array up to its closing bracket, each with a comma behind it except perhaps the
last. -/
def arrayItems (depth : Nat) : (fuel : Nat) → Scan (List Value)
  | 0 => failure
  | fuel + 1 => do
    gap
    if ← markIf ']' then return []
    let item ← value depth fuel
    gap
    if ← markIf ']' then return [item]
    mark ','
    return item :: (← arrayItems depth fuel)

/-- The entries of a table up to its closing brace, with commas between them, on one line. -/
def tablePairs (depth : Nat) (isFirst : Bool) : (fuel : Nat) → Scan (List (KeyPath × Value))
  | 0 => failure
  | fuel + 1 => do
    blanks
    if isFirst then
      if ← markIf '}' then return []
    let path ← key
    mark '='
    blanks
    let v ← value depth fuel
    blanks
    if ← markIf '}' then return [(path, v)]
    mark ','
    return (path, v) :: (← tablePairs depth false fuel)

end

-- ---------------------------------------------------------------------------
-- Lines
-- ---------------------------------------------------------------------------

def pair (fuel : Nat) : Scan Line := do
  let path ← key
  mark '='
  blanks
  let v ← value nestingLimit fuel
  lineRest
  return .pair path v

def header : Scan Line := do
  mark '['
  let isArray ← markIf '['
  let path ← key
  mark ']'
  if isArray then mark ']'
  lineRest
  return if isArray then .arrayHeader path else .header path

/-- The lines of a document that say something. -/
def linesFrom : (fuel : Nat) → Scan (List Line)
  | 0 => failure
  | fuel + 1 => do
    gap
    match ← get with
    | [] => return []
    | '#' :: _ =>
      lineRest
      linesFrom fuel
    | '[' :: _ =>
      let line ← header
      return line :: (← linesFrom fuel)
    | _ =>
      let line ← pair (2 * fuel + 2)
      return line :: (← linesFrom fuel)

/-- The table that a document writes; a mark of byte order in front is skipped. -/
def Entries.ofText (text : List Char) : Option Entries := do
  let text := match text with
    | '\ufeff' :: r => r
    | r => r
  let (lines, _) ← linesFrom (text.length + 1) text
  Entries.ofLines lines

end MessageLint.Toml
