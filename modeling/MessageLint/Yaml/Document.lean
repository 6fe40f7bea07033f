-- SUMMARY: From tokens to the first document of a text, a tree of nodes.
import MessageLint.Yaml.Layout

/-!
# Documents

A document is a tree of scalars, sequences and mappings. An alias stands for the node that an anchor
names; it is kept as the number of that node, because it may occur inside it. A reader of values
(`Lookup`) may go through aliases so many times only, lest a short text be a huge value
(`Document.resolve`). The fuel of the readers of tokens bounds their nesting and is a multiple of
the number of tokens.
-/

namespace MessageLint.Yaml

inductive Node where
  | scalar (text : List Char) (style : ScalarStyle) (tag : Option (List Char))
  | sequence (items : List Node)
  | mapping (pairs : List (Node × Node))
  | alias (number : Nat)
  deriving Inhabited

namespace Node

/-- A node that is not written. -/
def missing : Node := .scalar [] .plain none

mutual

/-- The number of marks that write a node: one for a scalar or an alias, two around the items of a
sequence or mapping. -/
def marks : Node → Nat
  | .scalar .. | .alias _ => 1
  | .sequence items => 2 + itemMarks items
  | .mapping pairs => 2 + pairMarks pairs

def itemMarks : List Node → Nat
  | [] => 0
  | n :: ns => n.marks + itemMarks ns

def pairMarks : List (Node × Node) → Nat
  | [] => 0
  | (k, v) :: ps => k.marks + v.marks + pairMarks ps

end

end Node

/-- What is left to read, and what is known of anchors and tags. -/
structure Reading where
  tokens : List Token
  /-- The names of anchors with their numbers, latest first. -/
  anchors : List (List Char × Nat)
  /-- The nodes that are named by anchors, the one that begins last first. -/
  nodes : List (Nat × Node)
  /-- What the handles of tags abbreviate. -/
  handles : List (List Char × List Char)

/-- A reader of a part of a document; it answers nothing where the tokens are in no order that the
grammar knows, or where they end too early. -/
abbrev Reader (α : Type) := StateT Reading Option α

namespace Reader

def peek : Reader Token := do
  match (← get).tokens with
  | t :: _ => return t
  | [] => failure

def skip : Reader Unit := modify fun r => { r with tokens := r.tokens.drop 1 }

/-- Takes the next token, which must be this one. -/
def expect (t : Token) : Reader Unit := do
  if (← peek) = t then skip else failure

-- ---------------------------------------------------------------------------
-- Properties
-- ---------------------------------------------------------------------------

def tagOf (handle suffix : List Char) : Reader (List Char) := do
  if handle.isEmpty then
    return suffix
  match (← get).handles.lookup handle with
  | some front => return front ++ suffix
  | none => failure

/-- What stands in front of the content of a node. -/
structure Properties where
  anchor : Option (List Char)
  tag : Option (List Char)

/-- An anchor and a tag, each at most once and in either order. -/
def properties : Reader Properties := do
  match ← peek with
  | .anchor name =>
    skip
    match ← peek with
    | .tag handle suffix =>
      skip
      return ⟨some name, some (← tagOf handle suffix)⟩
    | _ => return ⟨some name, none⟩
  | .tag handle suffix =>
    skip
    match ← peek with
    | .anchor name =>
      skip
      return ⟨some name, some (← tagOf handle suffix)⟩
    | _ => return ⟨none, some (← tagOf handle suffix)⟩
  | _ => return ⟨none, none⟩

/-- The number of a new anchor: how many names there are. -/
def numberAnchor (name : List Char) : Reader Nat := do
  let r ← get
  let number := (r.anchors.map (·.1)).eraseDups.length
  set { r with anchors := (name, number) :: r.anchors }
  return number

/-- Reads a node and keeps it under the number of its anchor. -/
def named (anchor : Option (List Char)) (read : Reader Node) : Reader Node := do
  match anchor with
  | none => read
  | some name =>
    let number ← numberAnchor name
    let earlier := (← get).nodes
    modify fun r => { r with nodes := [] }
    let node ← read
    modify fun r => { r with nodes := r.nodes ++ (number, node) :: earlier }
    return node

-- ---------------------------------------------------------------------------
-- Nodes
-- ---------------------------------------------------------------------------

/-- Where a node stands. -/
inductive Place where
  | block
  /-- In a mapping of a block, where the dashes of a sequence may stand at its keys' column. -/
  | ofMapping
  | flow
  deriving DecidableEq

mutual

def node (place : Place) : (fuel : Nat) → Reader Node
  | 0 => failure
  | fuel + 1 => do
    match ← peek with
    | .alias name =>
      skip
      match (← get).anchors.lookup name with
      | some number => return .alias number
      | none => failure
    | _ =>
      let p ← properties
      named p.anchor (content place p fuel)

/-- The content of a node behind its properties; with properties it may be missing. The tag `!` says
nothing of a scalar that is written. -/
def content (place : Place) (p : Properties) : (fuel : Nat) → Reader Node
  | 0 => failure
  | fuel + 1 => do
    let t ← peek
    if t = .item && place = .ofMapping then
      return .sequence (← dashedItems fuel)
    match t with
    | .scalar text style =>
      skip
      return .scalar text style (p.tag.filter (· ≠ ['!']))
    | .flowSequence =>
      skip
      return .sequence (← flowItems true fuel)
    | .flowMapping =>
      skip
      return .mapping (← flowPairs true fuel)
    | _ =>
      if t = .blockSequence && place ≠ .flow then
        skip
        return .sequence (← blockItems fuel)
      if t = .blockMapping && place ≠ .flow then
        skip
        return .mapping (← blockPairs fuel)
      if p.anchor.isSome || p.tag.isSome then
        return .scalar [] .plain p.tag
      failure

/-- A node, or a missing one if one of the given tokens comes next. -/
def nodeUnless (ends : List Token) (place : Place) : (fuel : Nat) → Reader Node
  | 0 => failure
  | fuel + 1 => do
    if ends.contains (← peek) then return .missing else node place fuel

/-- The items of a sequence in a block of its own. -/
def blockItems : (fuel : Nat) → Reader (List Node)
  | 0 => failure
  | fuel + 1 => do
    match ← peek with
    | .item =>
      skip
      let first ← nodeUnless [.item, .blockEnd] .block fuel
      return first :: (← blockItems fuel)
    | .blockEnd =>
      skip
      return []
    | _ => failure

/-- The items of a sequence whose dashes stand at the column of the keys around it. -/
def dashedItems : (fuel : Nat) → Reader (List Node)
  | 0 => failure
  | fuel + 1 => do
    match ← peek with
    | .item =>
      skip
      let first ← nodeUnless [.item, .key, .value, .blockEnd] .block fuel
      return first :: (← dashedItems fuel)
    | _ => return []

def blockPairs : (fuel : Nat) → Reader (List (Node × Node))
  | 0 => failure
  | fuel + 1 => do
    match ← peek with
    | .key =>
      skip
      let k ← nodeUnless [.key, .value, .blockEnd] .ofMapping fuel
      let v ← blockValue fuel
      return (k, v) :: (← blockPairs fuel)
    | .blockEnd =>
      skip
      return []
    | _ => failure

def blockValue : (fuel : Nat) → Reader Node
  | 0 => failure
  | fuel + 1 => do
    match ← peek with
    | .value =>
      skip
      nodeUnless [.key, .value, .blockEnd] .ofMapping fuel
    | _ => return .missing

/-- The items within square brackets; a pair is a mapping of its own. -/
def flowItems (isFirst : Bool) : (fuel : Nat) → Reader (List Node)
  | 0 => failure
  | fuel + 1 => do
    if !isFirst && (← peek) ≠ .flowSequenceEnd then
      expect .comma
    match ← peek with
    | .flowSequenceEnd =>
      skip
      return []
    | .key =>
      skip
      let k ← flowItemKey fuel
      let v ← flowValue [.comma, .flowSequenceEnd] fuel
      return .mapping [(k, v)] :: (← flowItems false fuel)
    | _ =>
      let first ← node .flow fuel
      return first :: (← flowItems false fuel)

/-- The key of a pair within square brackets. Where it is missing, the token behind the mark is
passed over. -/
def flowItemKey : (fuel : Nat) → Reader Node
  | 0 => failure
  | fuel + 1 => do
    if [Token.value, .comma, .flowSequenceEnd].contains (← peek) then
      skip
      return .missing
    node .flow fuel

/-- The value behind a colon within brackets, if there is one. -/
def flowValue (ends : List Token) : (fuel : Nat) → Reader Node
  | 0 => failure
  | fuel + 1 => do
    match ← peek with
    | .value =>
      skip
      nodeUnless ends .flow fuel
    | _ => return .missing

def flowPairs (isFirst : Bool) : (fuel : Nat) → Reader (List (Node × Node))
  | 0 => failure
  | fuel + 1 => do
    if !isFirst && (← peek) ≠ .flowMappingEnd then
      expect .comma
    match ← peek with
    | .flowMappingEnd =>
      skip
      return []
    | .key =>
      skip
      let k ← nodeUnless [.value, .comma, .flowMappingEnd] .flow fuel
      let v ← flowValue [.comma, .flowMappingEnd] fuel
      return (k, v) :: (← flowPairs false fuel)
    | _ =>
      let k ← node .flow fuel
      return (k, .missing) :: (← flowPairs false fuel)

end

-- ---------------------------------------------------------------------------
-- Documents
-- ---------------------------------------------------------------------------

/-- The directives in front of a document: at most one version, which must be 1.1 or 1.2, and each
handle once. -/
def directives (hasVersion : Bool) : (fuel : Nat) → Reader Unit
  | 0 => failure
  | fuel + 1 => do
    match ← peek with
    | .version major minor =>
      if hasVersion || major ≠ 1 || (minor ≠ 1 && minor ≠ 2) then
        failure
      skip
      directives true fuel
    | .tagHandle handle front =>
      if ((← get).handles.lookup handle).isSome then
        failure
      skip
      modify fun r => { r with handles := (handle, front) :: r.handles }
      directives hasVersion fuel
    | _ => return ()

/-- The abbreviations that hold in every document. -/
def defaultHandles : List (List Char × List Char) :=
  [(['!'], ['!']), (['!', '!'], "tag:yaml.org,2002:".toList)]

def root (fuel : Nat) : Reader Node := do
  match ← peek with
  | .version .. | .tagHandle .. | .documentStart =>
    directives false fuel
    modify fun r => { r with handles := r.handles ++ defaultHandles }
    expect .documentStart
    match ← peek with
    | .version .. | .tagHandle .. | .documentStart | .documentEnd | .textEnd => return .missing
    | _ => node .block fuel
  | _ =>
    modify fun r => { r with handles := defaultHandles }
    node .block fuel

/-- The root of the first document and something behind it; nothing where there is no document. -/
def document (fuel : Nat) : Reader (Option Node) := do
  match ← peek with
  | .textEnd => return none
  | _ =>
    let r ← root fuel
    discard peek
    return some r

end Reader

/-- A document, with the nodes that its anchors name. -/
structure Document where
  root : Node
  nodes : List (Nat × Node)

/-- A reader of values; it counts how many aliases may still be gone through. -/
abbrev Lookup := StateT Nat Option

namespace Document

/-- The node that an alias stands for; any other node is itself. -/
def resolve (d : Document) : Node → Lookup Node
  | .alias number => do
    match ← get with
    | 0 => failure
    | left + 1 =>
      set left
      return (d.nodes.lookup number).getD .missing
  | n => return n

/-- How many aliases may be gone through: a hundred for each mark of the document. -/
def lookups (d : Document) : Nat := 100 * d.root.marks

/-- The first document of a text: none if the text is malformed, and none inside if it is empty. -/
def ofText (text : List Char) : Option (Option Document) := do
  let tokens := (TokenList.ofText text).tokens
  let (root, r) ← (Reader.document (4 * tokens.length + 8)).run ⟨tokens, [], [], []⟩
  return root.map fun root => ⟨root, r.nodes⟩

end Document

end MessageLint.Yaml
