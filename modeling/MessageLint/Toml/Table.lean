-- SUMMARY: TOML values, and tables that are written in pieces.

/-!
# Tables

A table may be written in several places: under a header, through the headers of tables within it,
and through dotted keys. How it came to be (`Origin`) decides what may still be added: a header may
not be repeated, nor name a table that dotted keys have made, and a dotted key may not reach into a
table that has a header. A table in braces is complete where it is written.
-/

namespace MessageLint.Toml

/-- How a table came to be. -/
inductive Origin where
  /-- By its own header. -/
  | header
  /-- By the header of a table within it. -/
  | implied
  /-- By a dotted key. -/
  | dotted
  /-- In braces. -/
  | braces
  deriving DecidableEq, Repr, Inhabited

inductive Value where
  | text (s : List Char)
  | integer (n : Int)
  | float
  | flag (b : Bool)
  | dateTime
  | array (items : List Value)
  | table (origin : Origin) (entries : List (List Char × Value))
  /-- The tables under headers in double brackets, latest first. -/
  | tables (all : List (List (List Char × Value)))
  deriving Inhabited

abbrev Entries := List (List Char × Value)

/-- The keys of a dotted key or a header, outermost first. -/
abbrev KeyPath := List (List Char)

namespace Entries

/-- Puts `v` under a key that is there. -/
def replace (key : List Char) (v : Value) (es : Entries) : Entries :=
  es.map fun (k, old) => if k = key then (k, v) else (k, old)

/-- Adds an entry under a dotted key. The table that it is added to must have been made by dotted
keys, except where the key has no dots. -/
def addDotted (es : Entries) (path : KeyPath) (v : Value) : Option Entries :=
  match path with
  | [] => none
  | [key] => if (es.lookup key).isSome then none else some (es ++ [(key, v)])
  | key :: rest =>
    match es.lookup key with
    | none => (addDotted [] rest v).map fun sub => es ++ [(key, .table .dotted sub)]
    | some (.table origin sub) =>
      if origin = .dotted || (origin = .implied && 1 < rest.length) then
        (addDotted sub rest v).map fun sub => es.replace key (.table origin sub)
      else
        none
    | some (.tables (last :: earlier)) =>
      if 1 < rest.length then
        (addDotted last rest v).map fun last => es.replace key (.tables (last :: earlier))
      else
        none
    | some _ => none

/-- Changes the table that holds the last key of a header; tables on the way are made. -/
def alterParent (es : Entries) (path : KeyPath) (f : List Char → Entries → Option Entries) :
    Option Entries :=
  match path with
  | [] => none
  | [key] => f key es
  | key :: rest =>
    match es.lookup key with
    | none => (alterParent [] rest f).map fun sub => es ++ [(key, .table .implied sub)]
    | some (.table origin sub) =>
      if origin = .braces then
        none
      else
        (alterParent sub rest f).map fun sub => es.replace key (.table origin sub)
    | some (.tables (last :: earlier)) =>
      (alterParent last rest f).map fun last => es.replace key (.tables (last :: earlier))
    | some _ => none

/-- Opens the table of a header. -/
def openTable (es : Entries) (path : KeyPath) : Option Entries :=
  es.alterParent path fun key es =>
    match es.lookup key with
    | none => some (es ++ [(key, .table .header [])])
    | some (.table .implied sub) => some (es.replace key (.table .header sub))
    | some _ => none

/-- Opens one more table of a header in double brackets. -/
def openTables (es : Entries) (path : KeyPath) : Option Entries :=
  es.alterParent path fun key es =>
    match es.lookup key with
    | none => some (es ++ [(key, .tables [[]])])
    | some (.tables all) => some (es.replace key (.tables ([] :: all)))
    | some _ => none

/-- Adds an entry under a dotted key to the table that was opened last, at `current`. -/
def addAt (es : Entries) (current path : KeyPath) (v : Value) : Option Entries :=
  match current with
  | [] => es.addDotted path v
  | key :: rest =>
    match es.lookup key with
    | some (.table origin sub) =>
      (addAt sub rest path v).map fun sub => es.replace key (.table origin sub)
    | some (.tables (last :: earlier)) =>
      (addAt last rest path v).map fun last => es.replace key (.tables (last :: earlier))
    | _ => none

end Entries

/-- The table with these entries in braces. -/
def tableInBraces (pairs : List (KeyPath × Value)) : Option Value :=
  (pairs.foldlM (fun es (path, v) => Entries.addDotted es path v) []).map (.table .braces)

-- ---------------------------------------------------------------------------
-- Documents
-- ---------------------------------------------------------------------------

/-- A line of a document that says something. -/
inductive Line where
  | pair (path : KeyPath) (v : Value)
  | header (path : KeyPath)
  /-- A header in double brackets. -/
  | arrayHeader (path : KeyPath)

/-- The entries of a document, given those so far and the table that was opened last. -/
def entriesFrom (es : Entries) (current : KeyPath) : List Line → Option Entries
  | [] => some es
  | .pair path v :: lines => do entriesFrom (← es.addAt current path v) current lines
  | .header path :: lines => do entriesFrom (← es.openTable path) path lines
  | .arrayHeader path :: lines => do entriesFrom (← es.openTables path) path lines

def Entries.ofLines (lines : List Line) : Option Entries := entriesFrom [] [] lines

end MessageLint.Toml
