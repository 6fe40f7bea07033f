-- SUMMARY: Identifiers, function names and numbers.
import MessageLint.Grammar.Parser
import MessageLint.Resource

/-!
# Names and numbers

An identifier is a letter followed by letters, digits, `-` and `_`; a function name is an
identifier whose letters are all capitals. A number is an optional `-`, digits, and an optional
fraction. All of them are ASCII.
-/

namespace MessageLint

-- ---------------------------------------------------------------------------
-- Identifiers
-- ---------------------------------------------------------------------------

def isNameChar (ch : Char) : Bool := ch.isAlphanum || ch == '-' || ch == '_'

/-- Whether `name` may be called as a function. -/
def isCallee (name : List Char) : Bool :=
  match name with
  | [] => false
  | ch :: r => ch.isUpper && r.all fun d => d.isUpper || d.isDigit || d == '_' || d == '-'

def Parser.identifier : Parser Identifier := do
  let start ← place
  match start.peek with
  | some first =>
    if first.isAlpha then
      let name ← takeWhile isNameChar
      return ⟨name, ← spanFrom start⟩
    else
      fail (.expectedCharRange .letter)
  | none => fail (.expectedCharRange .letter)

-- ---------------------------------------------------------------------------
-- Numbers
-- ---------------------------------------------------------------------------

/-- Whether a number starts here: a digit, or `-` and a digit. -/
def Cursor.startsNumber (c : Cursor) : Bool :=
  match c.rest with
  | '-' :: d :: _ => d.isDigit
  | d :: _ => d.isDigit
  | [] => false

namespace Parser

def digits : Parser String := do
  let run ← takeWhile Char.isDigit
  if run.isEmpty then fail (.expectedCharRange .digit) else return run

def number : Parser NumberLiteral := do
  let start ← place
  let sign ← if start.peek = some '-' then do skip 1; pure "-" else pure ""
  let whole ← digits
  if (← peek) = some '.' then
    skip 1
    let fraction ← digits
    return ⟨sign ++ whole ++ "." ++ fraction, ← spanFrom start⟩
  else
    return ⟨sign ++ whole, ← spanFrom start⟩

end Parser

end MessageLint
