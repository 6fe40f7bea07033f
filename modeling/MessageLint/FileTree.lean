-- SUMMARY: All files and the working folder: reading, writing, links, and finding files.
import MessageLint.Path

/-!
# File trees

All access to files is to a `FileTree`: what lies below `/`, and the working folder, which every path
starts from that does not start with a slash. So a run is a function of the tree. Where a path leads
is said once, by `FileTree.resolve`, and all that reads, writes or searches cites it.
-/

namespace MessageLint

/-- A file, a symbolic link, or a folder with everything below it. -/
inductive FileNode where
  | file (content : ByteArray)
  | link (target : String)
  | folder (entries : List (String × FileNode))

/-- Names of folders from the top down, links resolved. -/
abbrev FileTree.Place := List String

/-- All files, from `/` down, and where the working folder is. A working folder that is not there any
more is a place where nothing is found. -/
structure FileTree where
  top : FileNode
  working : FileTree.Place

/-- Why a file cannot be read or written. -/
inductive FileFault where
  | notFound
  | notFolder
  | isFolder
  | nameTooLong
  | tooManyLinks
  /-- A path holds a zero byte, which ends it for the system. -/
  | zeroInPath
  | notText
  deriving DecidableEq, Repr, Inhabited

def FileFault.message : FileFault → String
  | .notFound => "No such file or directory (os error 2)"
  | .notFolder => "Not a directory (os error 20)"
  | .isFolder => "Is a directory (os error 21)"
  | .nameTooLong => "File name too long (os error 36)"
  | .tooManyLinks => "Too many levels of symbolic links (os error 40)"
  | .zeroInPath => "file name contained an unexpected NUL byte"
  | .notText => "stream did not contain valid UTF-8"

-- ---------------------------------------------------------------------------
-- Access by place
-- ---------------------------------------------------------------------------

namespace FileNode

open FileTree (Place)

def empty : FileNode := .folder []

def child? (name : String) : FileNode → Option FileNode
  | .folder entries => entries.lookup name
  | _ => none

def at? : Place → FileNode → Option FileNode
  | [], node => some node
  | name :: names, node => (node.child? name).bind (at? names)

/-- The entries with the one of this name changed, or added at the end. -/
def alterEntry (name : String) (f : Option FileNode → FileNode) :
    List (String × FileNode) → List (String × FileNode)
  | [] => [(name, f none)]
  | (n, node) :: rest =>
    if n == name then (n, f (some node)) :: rest else (n, node) :: alterEntry name f rest

/-- Puts `node` at a place; folders on the way are made. -/
def put (top : FileNode) (place : Place) (node : FileNode) : FileNode :=
  match place, top with
  | [], _ => node
  | name :: names, .folder entries =>
    .folder (alterEntry name (fun child => put (child.getD empty) names node) entries)
  | name :: names, _ => .folder [(name, put empty names node)]
termination_by place.length

mutual

/-- The paths of the files and links in a node, in its order; `path` is that of the node itself. -/
def paths (path : String) : FileNode → List String
  | .folder entries => entryPaths path entries
  | _ => [path]

def entryPaths (path : String) : List (String × FileNode) → List String
  | [] => []
  | (name, node) :: rest => node.paths (Path.join path name) ++ entryPaths path rest

end

end FileNode

namespace FileTree

/-- An empty working folder, with nothing beside it and nothing above it but the top. -/
def empty : FileTree := ⟨.folder [("work", .empty)], ["work"]⟩

/-- Puts `node` at a place as seen from the working folder. -/
def put (tree : FileTree) (place : Place) (node : FileNode) : FileTree :=
  { tree with top := tree.top.put (tree.working ++ place) node }

-- ---------------------------------------------------------------------------
-- Access by path
-- ---------------------------------------------------------------------------

/-- The names of a path, in order; `..` and `.` and empty ones among them. -/
def steps (path : String) : List String := (splitOn '/' path.toList).map String.ofList

/-- Where a path starts that is seen from a place: there, or at the top. -/
def startOf (place : Place) (path : String) : Place := if path.startsWith "/" then [] else place

/-- The number of bytes that a name may have. -/
def maxNameBytes : Nat := 255

/-- The number of bytes that a path may have. -/
def maxPathBytes : Nat := 4095

/-- Follows `steps` from a place, through at most `links` links; above the top is the top. With
`makes`, the last name may be one that is not there yet; a slash behind it then is a fault, since no
folder is made. -/
def follow (top : FileNode) (makes : Bool) (links : Nat) (place : Place) (steps : List String) :
    Except FileFault Place :=
  match steps with
  | [] => .ok place
  | step :: rest =>
    match top.at? place with
    | some (.folder entries) =>
      if step = "" ∨ step = "." then
        follow top makes links place rest
      else if step = ".." then
        follow top makes links place.dropLast rest
      else if makes && !rest.isEmpty && rest.all (· = "") then
        .error .isFolder
      else if maxNameBytes < step.utf8ByteSize then
        .error .nameTooLong
      else
        match entries.lookup step with
        | none => if makes && rest.isEmpty then .ok (place ++ [step]) else .error .notFound
        | some (.link target) =>
          match links with
          | 0 => .error .tooManyLinks
          | links + 1 =>
            follow top makes links (startOf place target) (FileTree.steps target ++ rest)
        | some _ => follow top makes links (place ++ [step]) rest
    | some _ => .error .notFolder
    | none => .error .notFound
termination_by (links, steps.length)

/-- The number of links that one path may lead through. -/
def maxLinks : Nat := 40

/-- The place that a path leads to; with `makes`, that of a file which may be missing. -/
def resolve (tree : FileTree) (makes : Bool) (path : String) : Except FileFault Place :=
  if path.contains '\x00' then .error .zeroInPath
  else if maxPathBytes < path.utf8ByteSize then .error .nameTooLong
  else if path.isEmpty then .error .notFound
  else follow tree.top makes maxLinks (startOf tree.working path) (steps path)

def node? (tree : FileTree) (path : String) : Option FileNode :=
  match tree.resolve false path with
  | .ok place => tree.top.at? place
  | .error _ => none

def isFolder (tree : FileTree) (path : String) : Bool :=
  match tree.node? path with
  | some (.folder _) => true
  | _ => false

def isFile (tree : FileTree) (path : String) : Bool :=
  match tree.node? path with
  | some (.file _) => true
  | _ => false

def hasEntry (tree : FileTree) (path : String) : Bool := (tree.node? path).isSome

/-- The text of the file at a path. -/
def readText (tree : FileTree) (path : String) : Except FileFault String :=
  match tree.resolve false path with
  | .error e => .error e
  | .ok place =>
    match tree.top.at? place with
    | some (.file content) =>
      match String.fromUTF8? content with
      | some text => .ok text
      | none => .error .notText
    | some (.folder _) => .error .isFolder
    | _ => .error .notFound

/-- The tree with `text` written to the file at a path, which is made if it is not there. -/
def writeText (tree : FileTree) (path text : String) : Except FileFault FileTree :=
  match tree.resolve true path with
  | .error e => .error e
  | .ok place =>
    match tree.top.at? place with
    | some (.folder _) => .error .isFolder
    | _ => .ok { tree with top := tree.top.put place (.file text.toUTF8) }

-- ---------------------------------------------------------------------------
-- Comparing trees
-- ---------------------------------------------------------------------------

/-- The path of a place from the top. -/
def pathOf (place : Place) : String := "/" ++ "/".intercalate place

/-- The paths that lead to another text in `after` than in `before`, with the new text. They are seen
from the working folder where they lie below it. A link to a file leads to what the file holds. -/
def changes (before after : FileTree) : List (String × String) :=
  (after.top.paths "/").filterMap fun path =>
    match after.readText path with
    | .ok text =>
      if (before.readText path).toOption = some text then none
      else some (Path.relativeTo path (pathOf before.working), text)
    | .error _ => none

-- ---------------------------------------------------------------------------
-- Finding files
-- ---------------------------------------------------------------------------

/-- Why a tree cannot be searched. -/
inductive WalkFault where
  /-- A link that leads back to a folder on the way to it. -/
  | loop (path ancestor : String)
  | unreadable (path : String) (fault : FileFault)
  deriving DecidableEq, Repr, Inhabited

def WalkFault.message : WalkFault → String
  | .loop path ancestor =>
    "File system loop found: " ++ path ++ " points to an ancestor " ++ ancestor
  | .unreadable path fault => "IO error for operation on " ++ path ++ ": " ++ fault.message

/-- The files at and below a path; links are followed. `above` holds the folders on the way, innermost
first. The path of an entry is longer than that of its folder, so `depth`, which bounds how much deeper
the search may go, runs out only behind a path that is too long. -/
def filesBelow (tree : FileTree) (depth : Nat) (above : List (Place × String)) (path : String) :
    Except WalkFault (List String) :=
  match depth with
  | 0 => .error (.unreadable path .nameTooLong)
  | depth + 1 =>
    match tree.resolve false path with
    | .error fault => .error (.unreadable path fault)
    | .ok place =>
      match tree.top.at? place with
      | some (.folder entries) => do
        let above := (place, path) :: above
        let found ← entries.mapM fun (name, node) => do
          let child := Path.join path name
          match node with
          | .file _ => return [child]
          | .folder _ => tree.filesBelow depth above child
          | .link _ =>
            match tree.resolve false child with
            | .error fault => throw (.unreadable child fault)
            | .ok target =>
              match tree.top.at? target with
              | some (.folder _) =>
                match above.lookup target with
                | some ancestor => throw (.loop child ancestor)
                | none => tree.filesBelow depth above child
              | _ => return [child]
        return found.flatten
      | _ => .ok [path]

/-- The files at and below a path, in the order of the tree. -/
def files (tree : FileTree) (path : String) : Except WalkFault (List String) :=
  tree.filesBelow (maxPathBytes + 1) [] path

end FileTree

end MessageLint
