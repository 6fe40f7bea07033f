-- SUMMARY: How settings are laid out in a file, whatever its format.
import MessageLint.Settings

/-!
# The layout of settings

A configuration is a record for each rule key, with the fields `enabled`, `disabled`, `min_length`
and `exclusions`; the last holds two lists, `files` and `messages`. Which values of a format count
as a record, a list, a flag and so on is up to the format (`Format`).
-/

namespace MessageLint

/-- How the values of a file format are read, in steps of `m`. Each reader fails where the value is
not of its kind. -/
structure Format (m : Type → Type) (ν : Type) where
  /-- The value, unless it stands for an absent one. -/
  present? : ν → m (Option ν)
  /-- The values of the named fields; fields that are not named are passed over. -/
  fields : (names : List String) → ν → m (String → Option ν)
  items : ν → m (List ν)
  text : ν → m String
  flag : ν → m Bool
  /-- A natural number below 2^64. -/
  number : ν → m Nat

namespace Format

variable {m : Type → Type} [Monad m] {α ν : Type} (f : Format m ν)

/-- What `read` makes of a field that may be missing or null. -/
def optional (read : ν → m α) : Option ν → m (Option α)
  | none => return none
  | some v => do
    match ← f.present? v with
    | none => return none
    | some v => return some (← read v)

def texts (v : Option ν) : m (List String) := do
  let list ← f.optional (fun v => f.items v >>= List.mapM f.text) v
  return list.getD []

def exclusions (v : ν) : m Exclusions := do
  let field ← f.fields ["files", "messages"] v
  return ⟨← f.texts (field "files"), ← f.texts (field "messages")⟩

def ruleSettings (v : ν) : m RuleSettings := do
  let field ← f.fields ["enabled", "disabled", "min_length", "exclusions"] v
  let enabled ← f.optional f.flag (field "enabled")
  let disabled ← f.optional f.flag (field "disabled")
  let minLength ← f.optional f.number (field "min_length")
  let exclusions ← f.optional f.exclusions (field "exclusions")
  return ⟨enabled, disabled, minLength, exclusions.getD .none⟩

/-- The configuration with these values under its keys. -/
def settings (entries : List (String × ν)) : m Settings := do
  let entries ← entries.mapM fun (key, v) => return (key, ← f.ruleSettings v)
  return .ofList entries

end Format

end MessageLint
