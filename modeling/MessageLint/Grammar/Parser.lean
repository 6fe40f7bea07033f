-- SUMMARY: Parsers over cursors: sequencing, failure, and the loops of the grammar.
import MessageLint.Grammar.Cursor
import MessageLint.SyntaxError

/-!
# Parsers

A parser answers a value and the cursor behind what it read, or the first fault. All repetition
goes through `Parser.gather`, which ends because each round must leave less unread, and all nesting
through `Parser.below`, which hands a parser only to places behind the current one.
-/

namespace MessageLint

def Parser (α : Type) : Type := Cursor → Except SyntaxError (α × Cursor)

namespace Parser

def pure (a : α) : Parser α := fun c => .ok (a, c)

def bind (p : Parser α) (f : α → Parser β) : Parser β := fun c =>
  match p c with
  | .ok (a, d) => f a d
  | .error e => .error e

instance : Monad Parser where
  pure := Parser.pure
  bind := Parser.bind

-- ---------------------------------------------------------------------------
-- Places and faults
-- ---------------------------------------------------------------------------

/-- Where the parser stands. -/
def place : Parser Cursor := fun c => .ok (c, c)

/-- Goes on from `d`, a place found by looking ahead. -/
def moveTo (d : Cursor) : Parser Unit := fun _ => .ok ((), d)

def failAt (span : Span) (cause : SyntaxCause) : Parser α := fun _ => .error ⟨cause, span⟩

/-- Fails at the next character. -/
def fail (cause : SyntaxCause) : Parser α := fun c => .error ⟨cause, c.here⟩

/-- The span from `start` to where the parser stands. -/
def spanFrom (start : Cursor) : Parser Span := fun c => .ok (start.spanTo c, c)

-- ---------------------------------------------------------------------------
-- Characters
-- ---------------------------------------------------------------------------

def peek : Parser (Option Char) := fun c => .ok (c.peek, c)

def skip (n : Nat) : Parser Unit := fun c => .ok ((), c.advance n)

def token (t : Char) : Parser Unit := fun c =>
  if c.peek = some t then .ok ((), c.next) else .error ⟨.expectedToken t, c.here⟩

/-- The longest run of characters that satisfy `p`. -/
def takeWhile (p : Char → Bool) : Parser String := fun c =>
  .ok (String.ofList (c.rest.takeWhile p), c.skipWhile p)

/-- A line end, which the end of the source stands for as well. -/
def lineEnd : Parser Unit := fun c =>
  if c.atEnd || c.peek = some '\n' then .ok ((), c.next) else .error ⟨.expectedToken '\n', c.here⟩

def skipSpaces : Parser Unit := fun c => .ok ((), c.skipSpaces)

def skipBlank : Parser Unit := fun c => .ok ((), c.skipBlank)

/-- Skips whole blank lines; the answer is their number. -/
def skipBlankLines : Parser Nat := fun c => .ok c.skipBlankLines

/-- Goes to the next character that is no blank if that is `t`, and says whether it is. -/
def skipBlankBefore (t : Char) : Parser Bool := fun c =>
  if c.skipBlank.peek = some t then .ok (true, c.skipBlank) else .ok (false, c)

-- ---------------------------------------------------------------------------
-- Repetition and nesting
-- ---------------------------------------------------------------------------

/-- Runs `step` as long as `more` asks for it and the last round moved forward. Both see what was
gathered so far, newest first; the answer is in reading order. -/
def gather (more : List α → Cursor → Bool) (step : List α → Parser α) (seen : List α) :
    Parser (List α) := fun c =>
  if more seen c then
    match step seen c with
    | .error e => .error e
    | .ok (a, d) =>
      if d.rest.length < c.rest.length then
        gather more step (a :: seen) d
      else
        .ok ((a :: seen).reverse, d)
  else
    .ok (seen.reverse, c)
termination_by c => c.rest.length

/-- A parser for places with fewer than `size` characters left; elsewhere it refuses. -/
def below (size : Nat)
    (p : (c : Cursor) → c.rest.length < size → Except SyntaxError (α × Cursor)) : Parser α :=
  fun c => if h : c.rest.length < size then p c h else fail .expectedInlineExpression c

end Parser

end MessageLint
