-- SUMMARY: Glob patterns over whole paths.

/-!
# Globs

`?` stands for any character, `*` for any text, and `[…]` or `[!…]` for one character of a class;
slashes are characters like others. `**` stands for any number of folders and must be a whole
component of the pattern. A pattern matches a whole text.
-/

namespace MessageLint

inductive GlobCause where
  /-- More than two `*` in a row. -/
  | wildcards
  /-- A `**` that shares its component with something else. -/
  | recursiveWildcards
  /-- A class that is not closed. -/
  | range
  deriving DecidableEq, Repr, Inhabited

structure GlobError where
  /-- A count of characters, from the start of the pattern. -/
  position : Nat
  cause : GlobCause
  deriving DecidableEq, Repr, Inhabited

def GlobCause.message : GlobCause → String
  | .wildcards => "wildcards are either regular \x60*\x60 or recursive \x60**\x60"
  | .recursiveWildcards => "recursive wildcards must form a single path component"
  | .range => "invalid range pattern"

def GlobError.message (e : GlobError) : String :=
  "Pattern syntax error near position " ++ toString e.position ++ ": " ++ e.cause.message

-- ---------------------------------------------------------------------------
-- Patterns
-- ---------------------------------------------------------------------------

/-- The characters from the first to the second, both included. -/
structure CharInterval where
  first : Char
  last : Char
  deriving DecidableEq, Repr, Inhabited

def CharInterval.contains (i : CharInterval) (c : Char) : Bool := i.first ≤ c && c ≤ i.last

inductive GlobToken where
  | literal (c : Char)
  | anyChar
  | anyText
  | anyFolders
  | oneOf (cs : List CharInterval)
  | noneOf (cs : List CharInterval)
  deriving DecidableEq, Repr, Inhabited

abbrev Glob := List GlobToken

namespace Glob

/-- What stands between the brackets of a class: `a-z` is an interval, all else are single
characters. -/
def intervals : List Char → List CharInterval
  | a :: '-' :: b :: r => ⟨a, b⟩ :: intervals r
  | a :: r => ⟨a, a⟩ :: intervals r
  | [] => []

/-- What follows a `[` or `[!`: the characters of the class and what stands behind its `]`. The
first character always belongs to the class. -/
def class? (text : List Char) : Option (List Char × List Char) :=
  match text with
  | [] => none
  | first :: r =>
    match r.dropWhile (· ≠ ']') with
    | _ :: rest => some (first :: r.takeWhile (· ≠ ']'), rest)
    | [] => none

theorem class?_length {text cs rest : List Char} (h : class? text = some (cs, rest)) :
    rest.length < text.length := by
  unfold class? at h
  split at h
  · simp at h
  · next first r =>
    have := (List.dropWhile_sublist (· ≠ ']') (l := r)).length_le
    split at h
    · next heq =>
      cases h
      rw [heq] at this
      simp only [List.length_cons] at this ⊢
      omega
    · simp at h

/-- Reads a pattern from the character at `position`, the one behind `before`. -/
def parseFrom (position : Nat) (before : Option Char) (text : List Char) :
    Except GlobError Glob :=
  match text with
  | [] => .ok []
  | '?' :: r => (parseFrom (position + 1) (some '?') r).map (.anyChar :: ·)
  | '*' :: '*' :: '*' :: _ => .error ⟨position + 2, .wildcards⟩
  | '*' :: '*' :: r =>
    if before.all (· = '/') then
      match r with
      | [] => .ok [.anyFolders]
      | '/' :: r' => (parseFrom (position + 3) (some '/') r').map (.anyFolders :: ·)
      | _ => .error ⟨position + 2, .recursiveWildcards⟩
    else
      .error ⟨position - 1, .recursiveWildcards⟩
  | '*' :: r => (parseFrom (position + 1) (some '*') r).map (.anyText :: ·)
  | '[' :: '!' :: r =>
    match h : class? r with
    | some (cs, rest) =>
      have := class?_length h
      (parseFrom (position + 3 + cs.length) (some ']') rest).map (.noneOf (intervals cs) :: ·)
    | none => .error ⟨position, .range⟩
  | '[' :: r =>
    match h : class? r with
    | some (cs, rest) =>
      have := class?_length h
      (parseFrom (position + 2 + cs.length) (some ']') rest).map (.oneOf (intervals cs) :: ·)
    | none => .error ⟨position, .range⟩
  | c :: r => (parseFrom (position + 1) (some c) r).map (.literal c :: ·)
termination_by text.length

def parse (pattern : String) : Except GlobError Glob := parseFrom 0 none pattern.toList

-- ---------------------------------------------------------------------------
-- Matching
-- ---------------------------------------------------------------------------

/-- Whether a token that stands for one character stands for this one. -/
def accepts : GlobToken → Char → Bool
  | .literal d, c => d == c
  | .anyChar, _ => true
  | .oneOf cs, c => cs.any (·.contains c)
  | .noneOf cs, c => !cs.any (·.contains c)
  | _, _ => false

/-- The ends of a text, from all of it to nothing. -/
def suffixes : List Char → List (List Char)
  | [] => [[]]
  | c :: cs => (c :: cs) :: suffixes cs

/-- What stands behind each slash of a text, and nothing. -/
def behindSlashes : List Char → List (List Char)
  | [] => [[]]
  | c :: cs => if c = '/' then cs :: behindSlashes cs else behindSlashes cs

/-- Whether the whole text matches. `**` covers nothing, everything, or all up to a slash. -/
def matchesText : Glob → List Char → Bool
  | [], text => text.isEmpty
  | .anyText :: ts, text => (suffixes text).any (matchesText ts)
  | .anyFolders :: ts, text => (text :: behindSlashes text).any (matchesText ts)
  | _ :: _, [] => false
  | t :: ts, c :: r => accepts t c && matchesText ts r

end Glob

end MessageLint
