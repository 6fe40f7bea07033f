-- SUMMARY: JSON values, their indented text, and reports as JSON.
import MessageLint.Report

/-!
# JSON

`Json.Value.text` lays a value out over several lines, two spaces a level. Reports are written with
their fields in a fixed order and read back in any order: fields that are not known are skipped, and
an array with the fields in order is taken as well.
-/

namespace MessageLint.Json

inductive Value where
  | null
  | bool (b : Bool)
  | number (n : Nat)
  /-- A number that is no natural number below 2^64. -/
  | otherNumber
  | string (s : String)
  | array (items : List Value)
  | object (fields : List (String × Value))
  deriving Inhabited

-- ---------------------------------------------------------------------------
-- Writing
-- ---------------------------------------------------------------------------

def hexDigit (n : Nat) : Char := if n < 10 then Char.ofNat (48 + n) else Char.ofNat (87 + n)

/-- A character inside a string. -/
def escaped (c : Char) : List Char :=
  match c with
  | '"' => ['\\', '"']
  | '\\' => ['\\', '\\']
  | '\n' => ['\\', 'n']
  | '\r' => ['\\', 'r']
  | '\t' => ['\\', 't']
  | '\x08' => ['\\', 'b']
  | '\x0c' => ['\\', 'f']
  | c =>
    if c.toNat < 0x20 then ['\\', 'u', '0', '0', hexDigit (c.toNat / 16), hexDigit (c.toNat % 16)]
    else [c]

def quoted (s : String) : String :=
  "\"" ++ String.ofList (s.toList.flatMap escaped) ++ "\""

/-- The start of a line at the given depth. -/
def newline (depth : Nat) : String := "\n" ++ String.ofList (List.replicate (2 * depth) ' ')

mutual

def Value.textAt (depth : Nat) : Value → String
  | .null => "null"
  | .bool b => if b then "true" else "false"
  | .number n => toString n
  | .otherNumber => "null"
  | .string s => quoted s
  | .array [] => "[]"
  | .array items => "[" ++ itemsText (depth + 1) items ++ newline depth ++ "]"
  | .object [] => "\x7b\x7d"
  | .object fields => "\x7b" ++ fieldsText (depth + 1) fields ++ newline depth ++ "\x7d"

def itemsText (depth : Nat) : List Value → String
  | [] => ""
  | [v] => newline depth ++ v.textAt depth
  | v :: vs => newline depth ++ v.textAt depth ++ "," ++ itemsText depth vs

def fieldsText (depth : Nat) : List (String × Value) → String
  | [] => ""
  | [(k, v)] => newline depth ++ quoted k ++ ": " ++ v.textAt depth
  | (k, v) :: fs =>
    newline depth ++ quoted k ++ ": " ++ v.textAt depth ++ "," ++ fieldsText depth fs

end

def Value.text (v : Value) : String := v.textAt 0

-- ---------------------------------------------------------------------------
-- Reports
-- ---------------------------------------------------------------------------

def ofLocation (l : Location) : Value :=
  .object [("file", .string l.file), ("line", .number l.line), ("column", .number l.column),
    ("offset", .number l.offset), ("length", .number l.length)]

def ofViolation (v : Violation) : Value :=
  .object [("code", .string v.code), ("rule", .string v.rule),
    ("location", ofLocation v.location), ("message", .string v.message)]

def ofFileError (e : FileError) : Value :=
  .object [("location", ofLocation e.location), ("message", .string e.message)]

def ofReport (r : Report) : Value :=
  .object [("violations", .array (r.violations.map ofViolation)),
    ("file_errors", .array (r.fileErrors.map ofFileError)),
    ("files_checked", .number r.filesChecked)]

-- ---------------------------------------------------------------------------
-- Reading reports
-- ---------------------------------------------------------------------------

/-- The values of the named fields, in that order; an array must hold exactly these. -/
def Value.fields? (names : List String) : Value → Option (List Value)
  | .object fields => names.mapM fun name => fields.lookup name
  | .array items => if items.length = names.length then some items else none
  | _ => none

def Value.string? : Value → Option String
  | .string s => some s
  | _ => none

def Value.number? : Value → Option Nat
  | .number n => some n
  | _ => none

def Value.array? : Value → Option (List Value)
  | .array items => some items
  | _ => none

def toLocation? (v : Value) : Option Location := do
  match ← v.fields? ["file", "line", "column", "offset", "length"] with
  | [file, line, column, offset, length] =>
    return ⟨← file.string?, ← line.number?, ← column.number?, ← offset.number?, ← length.number?⟩
  | _ => none

def toViolation? (v : Value) : Option Violation := do
  match ← v.fields? ["code", "rule", "location", "message"] with
  | [code, rule, location, message] =>
    return ⟨← code.string?, ← rule.string?, ← toLocation? location, ← message.string?⟩
  | _ => none

def toFileError? (v : Value) : Option FileError := do
  match ← v.fields? ["location", "message"] with
  | [location, message] => return ⟨← toLocation? location, ← message.string?⟩
  | _ => none

def toReport? (v : Value) : Option Report := do
  match ← v.fields? ["violations", "file_errors", "files_checked"] with
  | [violations, fileErrors, filesChecked] =>
    return ⟨← (← violations.array?).mapM toViolation?, ← (← fileErrors.array?).mapM toFileError?,
      ← filesChecked.number?⟩
  | _ => none

end MessageLint.Json
