-- SUMMARY: Slash-separated paths, compared by components and kept as written.

/-!
# Paths

A path is its text. Two paths are compared by their components (`Path.components`): repeated
slashes, a slash at the end and `.` inside are no components; a slash or a `.` at the very start is
one, and `..` always is. `Path.strip?` cuts a path off the front of another and keeps what is left
as it was written.
-/

namespace MessageLint

inductive PathComponent where
  | root
  | current
  | parent
  | name (text : List Char)
  deriving DecidableEq, Repr, Inhabited

/-- The pieces of a text between separators; there is always one more than separators. -/
def splitOn [BEq α] (separator : α) : List α → List (List α)
  | [] => [[]]
  | c :: cs =>
    if c == separator then
      [] :: splitOn separator cs
    else
      match splitOn separator cs with
      | piece :: pieces => (c :: piece) :: pieces
      | [] => [[c]]

namespace Path

/-- What a piece between slashes inside a path stands for. -/
def component? : List Char → Option PathComponent
  | [] => none
  | ['.'] => none
  | ['.', '.'] => some .parent
  | text => some (.name text)

/-- The component that a path starts with because of its first character, and the text behind it. -/
def start? : List Char → Option PathComponent × List Char
  | '/' :: body => (some .root, body)
  | ['.'] => (some .current, [])
  | '.' :: '/' :: body => (some .current, '/' :: body)
  | body => (none, body)

def componentsOf (path : List Char) : List PathComponent :=
  let (first, body) := start? path
  first.toList ++ (splitOn '/' body).filterMap component?

def components (path : String) : List PathComponent := componentsOf path.toList

/-- Whether the last components of `path` are those of `tail`. -/
def endsWith (path tail : String) : Bool := (components tail).isSuffixOf (components path)

-- ---------------------------------------------------------------------------
-- Cutting a path off the front
-- ---------------------------------------------------------------------------

/-- Drops slashes and `.` pieces from the front of a text inside a path. -/
def trimStart : List Char → List Char
  | '/' :: r => trimStart r
  | ['.'] => []
  | '.' :: '/' :: r => trimStart r
  | text => text

/-- Drops slashes and `.` pieces from the end, reading the text backwards; a first component of
`keep` characters, at most one, stays. -/
def trimReversed (keep : Nat) : List Char → List Char
  | '/' :: r => if keep ≤ r.length then trimReversed keep r else '/' :: r
  | '.' :: '/' :: r => if keep ≤ r.length then trimReversed keep r else '/' :: r
  | text => text

def trimStop (keep : Nat) (text : List Char) : List Char := (trimReversed keep text.reverse).reverse

/-- What stands behind the given components at the front of a text inside a path. -/
def dropComponents : List PathComponent → List Char → Option (List Char)
  | [], text => some text
  | c :: cs, text =>
    let trimmed := trimStart text
    let piece := trimmed.takeWhile (· ≠ '/')
    if component? piece = some c then
      dropComponents cs (trimmed.drop (piece.length + 1))
    else
      none

/-- The rest of `path` behind the components of `front`, if it starts with them. -/
def strip? (path front : String) : Option String :=
  let (first, body) := start? path.toList
  match first, components front with
  | _, [] => some (String.ofList (trimStop (if first.isSome then 1 else 0) path.toList))
  | some c, d :: ds => if c = d then cut ds body else none
  | none, ds => cut ds body
where
  cut (cs : List PathComponent) (text : List Char) : Option String :=
    (dropComponents cs text).map fun rest => String.ofList (trimStop 0 (trimStart rest))

/-- `path` as seen from `root`, or `path` itself when it is not below it. -/
def relativeTo (path root : String) : String := (strip? path root).getD path

-- ---------------------------------------------------------------------------
-- Names and extensions
-- ---------------------------------------------------------------------------

/-- `name` inside the folder at `path`; an absolute name stands for itself. -/
def join (path name : String) : String :=
  if path.isEmpty || name.startsWith "/" then name
  else if path.endsWith "/" then path ++ name
  else path ++ "/" ++ name

/-- The last component, if it is a name. -/
def fileName? (path : String) : Option (List Char) :=
  match (components path).getLast? with
  | some (.name text) => some text
  | _ => none

/-- What stands behind the last period of the file name; a period that opens the name does not
count. -/
def extension? (path : String) : Option (List Char) := do
  let name ← fileName? path
  match name.reverse.span (· ≠ '.') with
  | (after, _ :: _ :: _) => some after.reverse
  | _ => none

end Path

end MessageLint
