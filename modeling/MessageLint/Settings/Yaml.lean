-- SUMMARY: Settings in YAML.
import MessageLint.Settings.Format
import MessageLint.Text.WhiteSpace
import MessageLint.Yaml.Document

/-!
# Settings in YAML

Only the first document counts. A record may be left empty, as `ID01:` leaves it, but not be null; a
flag, a number or a list may be both. Flags and numbers are plain scalars, or literal ones with the
tag of their kind; any scalar is a text, as it is written. A key may be repeated, a field may not.
-/

namespace MessageLint.Yaml

-- ---------------------------------------------------------------------------
-- Scalars
-- ---------------------------------------------------------------------------

def standardTag (kind : String) : List Char := "tag:yaml.org,2002:".toList ++ kind.toList

/-- The spellings of null besides the empty one. -/
def isNullText (text : List Char) : Bool :=
  ["~", "null", "Null", "NULL"].contains (String.ofList text)

def flag? (text : List Char) : Option Bool :=
  match String.ofList text with
  | "true" | "True" | "TRUE" => some true
  | "false" | "False" | "FALSE" => some false
  | _ => none

/-- A number, with a plus sign or without: in base 16, 8 or 2 behind `0x`, `0o` or `0b`, and in base
10 without zeros in front. -/
def number? (text : List Char) : Option Nat :=
  let unsigned := match text with
    | '+' :: r => r
    | r => r
  let n? := match unsigned with
    | '0' :: 'x' :: r => numberIn? 16 r
    | '0' :: 'o' :: r => numberIn? 8 r
    | '0' :: 'b' :: r => numberIn? 2 r
    | '0' :: _ :: _ => none
    | r => numberIn? 10 r
  n?.filter (· < 0x10000000000000000)

-- ---------------------------------------------------------------------------
-- Nodes
-- ---------------------------------------------------------------------------

namespace Document

variable (d : Document)

/-- The node itself, unless it is null. A null tag on a text that is not null is refused. -/
def present? (n : Node) : Lookup (Option Node) := do
  let n ← d.resolve n
  match n with
  | .scalar text .plain (some tag) =>
    if tag = standardTag "null" then
      if isNullText text then return none else failure
    else
      return some n
  | .scalar text .plain none => return if text.isEmpty || isNullText text then none else some n
  | _ => return some n

/-- The text of a scalar that may stand for a value of this kind. -/
def valueText (kind : String) (n : Node) : Lookup (List Char) := do
  match ← d.resolve n with
  | .scalar text .plain _ => return text
  | .scalar text .literal tag => if tag = some (standardTag kind) then return text else failure
  | _ => failure

def text (n : Node) : Lookup String := do
  match ← d.resolve n with
  | .scalar text _ _ => return String.ofList text
  | _ => failure

def flag (n : Node) : Lookup Bool := do
  match flag? (← d.valueText "bool" n) with
  | some b => return b
  | none => failure

def number (n : Node) : Lookup Nat := do
  match number? (← d.valueText "int" n) with
  | some k => return k
  | none => failure

/-- The values of a mapping under their keys, which must be scalars; an empty scalar is an empty
mapping. -/
def entries (n : Node) : Lookup (List (String × Node)) := do
  match ← d.resolve n with
  | .mapping pairs => pairs.mapM fun (k, v) => return (← d.text k, v)
  | .scalar [] .plain _ => return []
  | _ => failure

def items (n : Node) : Lookup (List Node) := do
  match ← d.resolve n with
  | .sequence items => return items
  | .scalar [] .plain _ => return []
  | _ => failure

/-- The fields of a mapping; none of the named ones may be repeated. -/
def fields (names : List String) (n : Node) : Lookup (String → Option Node) := do
  let entries ← d.entries n
  if names.any fun name => 1 < entries.countP (·.1 == name) then
    failure
  return fun name => entries.lookup name

def format : Format Lookup Node where
  present? := d.present?
  fields := d.fields
  items := d.items
  text := d.text
  flag := d.flag
  number := d.number

/-- The settings that a document holds; there are none in one that is null. -/
def settings : Lookup Settings := do
  match ← d.present? d.root with
  | none => return .empty
  | some root => d.format.settings (← d.entries root)

end Document

end MessageLint.Yaml

namespace MessageLint

/-- The settings that a text in YAML holds; there are none in an empty document. -/
def Settings.ofYaml (text : String) : Except SettingsError Settings :=
  let settings? : Option Settings := do
    if (trimWhiteSpace text).isEmpty then
      return .empty
    match ← Yaml.Document.ofText text.toList with
    | none => return .empty
    | some d => d.settings.run' d.lookups
  match settings? with
  | some s => .ok s
  | none => .error .malformed

end MessageLint
