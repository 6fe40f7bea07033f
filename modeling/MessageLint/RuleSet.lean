-- SUMMARY: Which rules report, and what they leave out.
import MessageLint.Path
import MessageLint.Rule

/-!
# Rule sets

A rule set says which rules are enabled, for which files and identifiers a rule is switched off, and
how long identifiers must be. Every change to it is a function to a new rule set.
-/

namespace MessageLint

/-- Files and identifiers to which a rule does not apply. -/
structure Exclusions where
  files : List String
  messages : List String
  deriving DecidableEq, Repr, Inhabited

namespace Exclusions

def none : Exclusions := ⟨[], []⟩

/-- A file is listed by the end of its path, an identifier by itself. -/
def excludes (e : Exclusions) (path identifier : String) : Bool :=
  e.files.any (fun file => !file.isEmpty && Path.endsWith path file) ||
    e.messages.any (· == identifier)

end Exclusions

structure RuleSet where
  isEnabled : Rule → Bool
  exclusions : Rule → Exclusions
  minLength : Nat

namespace RuleSet

def empty : RuleSet := ⟨fun _ => false, fun _ => .none, 0⟩

/-- Every rule, without exclusions; identifiers may have any length. -/
def allEnabled : RuleSet := ⟨fun _ => true, fun _ => .none, 0⟩

/-- The enabled rules in the order of their codes. -/
def enabled (s : RuleSet) : List Rule := Rule.all.filter s.isEnabled

def enable (s : RuleSet) (rule : Rule) : RuleSet :=
  { s with isEnabled := fun r => r == rule || s.isEnabled r }

def withMinLength (s : RuleSet) (n : Nat) : RuleSet := { s with minLength := n }

/-- Replaces what `rule` leaves out. -/
def exclude (s : RuleSet) (rule : Rule) (e : Exclusions) : RuleSet :=
  { s with exclusions := fun r => if r = rule then e else s.exclusions r }

/-- Disables every rule that is not listed. -/
def restrict (s : RuleSet) (rules : List Rule) : RuleSet :=
  { s with isEnabled := fun r => s.isEnabled r && rules.contains r }

def isExcluded (s : RuleSet) (rule : Rule) (path identifier : String) : Bool :=
  (s.exclusions rule).excludes path identifier

end RuleSet

end MessageLint
