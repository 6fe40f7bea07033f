-- SUMMARY: Settings in TOML.
import MessageLint.Settings.Format
import MessageLint.Toml.Document

/-!
# Settings in TOML

There is no null. A record may be a table, or an array with the fields in their order, of which the
last may be missing. A date or time is taken for a record without fields.
-/

namespace MessageLint.Toml

namespace Value

/-- The entries of a table. -/
def entries? : Value → Option Entries
  | table _ es => some es
  | dateTime => some []
  | _ => none

def items? : Value → Option (List Value)
  | array items => some items
  | tables all => some (all.reverse.map (.table .header))
  | _ => none

def fields? (names : List String) (v : Value) : Option (String → Option Value) :=
  match v.items? with
  | some items => some fun name => (names.idxOf? name).bind (items[·]?)
  | none => v.entries?.map fun es name => es.lookup name.toList

def text? : Value → Option String
  | text s => some (String.ofList s)
  | _ => none

def flag? : Value → Option Bool
  | flag b => some b
  | _ => none

def number? : Value → Option Nat
  | integer n => if 0 ≤ n then some n.toNat else none
  | _ => none

end Value

def format : Format Option Value where
  present? v := some (some v)
  fields := Value.fields?
  items := Value.items?
  text := Value.text?
  flag := Value.flag?
  number := Value.number?

end MessageLint.Toml

namespace MessageLint

/-- The settings that a text in TOML holds. -/
def Settings.ofToml (text : String) : Except SettingsError Settings :=
  let settings? : Option Settings := do
    let es ← Toml.Entries.ofText text.toList
    Toml.format.settings (es.map fun (key, v) => (String.ofList key, v))
  match settings? with
  | some s => .ok s
  | none => .error .malformed

end MessageLint
