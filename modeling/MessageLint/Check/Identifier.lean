-- SUMMARY: Format and length of the identifiers of messages and terms.
import MessageLint.Resource
import MessageLint.RuleSet
import MessageLint.Check.Finding

/-!
# Identifiers

Both rules on identifiers can be switched off for files and for single identifiers. Only the names
of messages and terms are looked at: attributes, variants and references are named by others.
-/

namespace MessageLint

/-- Whether a name is made of lower-case ASCII letters, digits and `-` only. -/
def isPlainName (name : String) : Bool :=
  !name.isEmpty && name.toList.all fun c => c.isLower || c.isDigit || c == '-'

/-- What is wrong with the name of a message or term in the file at `path`. -/
def Identifier.findings (rules : RuleSet) (path : String) (id : Identifier) : List Finding :=
  let applies (rule : Rule) : Bool := !rules.isExcluded rule path id.name
  (if applies .identifierFormat && !isPlainName id.name then
    [⟨.identifierFormat, id.span, ""⟩] else []) ++
  (if applies .identifierLength && id.name.length < rules.minLength then
    [⟨.identifierLength, id.span, toString rules.minLength⟩] else [])

end MessageLint
