-- SUMMARY: Quoted text with escapes.
import MessageLint.Grammar.Parser
import MessageLint.Resource
import MessageLint.Text.Digits

/-!
# Quoted text

A quoted text stays on one line. A backslash opens an escape: a backslash or a quote stands for
itself, `\u` takes exactly four hexadecimal digits and `\U` exactly six. Digits that name no
character stand for the replacement character U+FFFD.
-/

namespace MessageLint

def replacementCharacter : Char := '\ufffd'

-- ---------------------------------------------------------------------------
-- Escapes and literals
-- ---------------------------------------------------------------------------

namespace Parser

/-- At the letter of a `\u` or `\U` escape that began at `start`: the letter and its `count`
digits. -/
def unicodeEscape (start : Cursor) (letter : Char) (count : Nat) : Parser Char := do
  skip 1
  let digits := ((← place).rest.take count).takeWhile fun ch => (hexDigit? ch).isSome
  skip digits.length
  if digits.length = count then
    return (scalar? (hexValue digits)).getD replacementCharacter
  else
    let written := String.ofList ('\\' :: letter :: digits)
    failAt (← spanFrom start) (.invalidUnicodeEscapeSequence written)

/-- At a backslash: the character that the escape stands for. -/
def escape : Parser Char := do
  let start ← place
  skip 1
  match ← peek with
  | none => failAt (← spanFrom start) .unterminatedStringLiteral
  | some 'u' => unicodeEscape start 'u' 4
  | some 'U' => unicodeEscape start 'U' 6
  | some ch =>
    skip 1
    if ch = '\\' ∨ ch = '"' then
      return ch
    else
      failAt (← spanFrom start) (.unknownEscapeSequence ch)

/-- One character of a literal whose opening quote stands at `start`. -/
def quotedChar (start : Cursor) : Parser Char := do
  match ← peek with
  | none | some '\n' => failAt (← spanFrom start) .unterminatedStringLiteral
  | some '\\' => escape
  | some ch =>
    skip 1
    return ch

def stringLiteral : Parser StringLiteral := do
  let start ← place
  token '"'
  let value ← gather (fun _ c => c.peek ≠ some '"') (fun _ => quotedChar start) []
  token '"'
  return ⟨String.ofList value, ← spanFrom start⟩

end Parser

end MessageLint
