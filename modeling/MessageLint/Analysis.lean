-- SUMMARY: Checking all files of a folder and merging what is found.
import MessageLint.FileTree
import MessageLint.Glob
import MessageLint.Grammar.Entry
import MessageLint.Lint

/-!
# Analyses

An analysis checks the message files below a folder with one or more rule sets. A file that is no
resource is recorded and does not stop the analysis; a file that cannot be read, or that holds a
carriage return, does, and then there is no report.
-/

namespace MessageLint

inductive AnalysisError where
  | rootNotFound (root : String)
  | badGlob (e : GlobError)
  | walk (e : FileTree.WalkFault)
  | unreadable (path : String) (fault : FileFault)
  | carriageReturn (path : String) (e : CarriageReturn)
  deriving DecidableEq, Repr, Inhabited

namespace AnalysisError

def message : AnalysisError → String
  | .rootNotFound root => "Root folder not found: " ++ root
  | .badGlob e => "Invalid glob pattern: " ++ e.message
  | .walk e => "Failed to walk directory: " ++ e.message
  | .unreadable path fault => "Failed to read " ++ path ++ ": " ++ fault.message
  | .carriageReturn path e => path ++ ": " ++ e.message

/-- The message with those of the errors behind it, outermost first. -/
def chain (e : AnalysisError) : List String :=
  e.message ::
    match e with
    | .rootNotFound _ => []
    | .badGlob e => [e.message]
    | .walk (.loop path ancestor) => [(FileTree.WalkFault.loop path ancestor).message]
    | .walk (.unreadable path fault) =>
      [(FileTree.WalkFault.unreadable path fault).message, fault.message]
    | .unreadable _ fault => [fault.message]
    | .carriageReturn _ e => [e.message]

end AnalysisError

/-- What to check: the files below `root` that match no pattern of `exclude`, with each rule set in
turn. -/
structure Analysis where
  root : String
  ruleSets : List RuleSet
  exclude : List Glob

namespace Analysis

/-- An analysis of a folder that exists, with patterns that are valid. -/
def make (tree : FileTree) (root : String) (ruleSets : List RuleSet) (exclude : List String) :
    Except AnalysisError Analysis :=
  if tree.isFolder root then
    match exclude.mapM Glob.parse with
    | .ok globs => .ok ⟨root, ruleSets, globs⟩
    | .error e => .error (.badGlob e)
  else
    .error (.rootNotFound root)

-- ---------------------------------------------------------------------------
-- One file
-- ---------------------------------------------------------------------------

/-- The report on one source; `root` is the folder that its name is seen from. -/
def checkText (root : String) (ruleSets : List RuleSet) (path text : String) :
    Except CarriageReturn Report :=
  match Source.ofText path root text.toList with
  | .error e => .error e
  | .ok src =>
    match Resource.parse text with
    | .error e => .ok ⟨[], [⟨src.location e.span, e.message⟩], 1⟩
    | .ok resource => .ok ⟨ruleSets.flatMap fun rules => resource.lint rules src, [], 1⟩

def checkSource (a : Analysis) (path text : String) : Except AnalysisError Report :=
  (checkText a.root a.ruleSets path text).mapError (.carriageReturn path)

def checkFile (a : Analysis) (tree : FileTree) (path : String) : Except AnalysisError Report :=
  match tree.readText path with
  | .ok text => a.checkSource path text
  | .error fault => .error (.unreadable path fault)

-- ---------------------------------------------------------------------------
-- All files
-- ---------------------------------------------------------------------------

def isExcluded (a : Analysis) (path : String) : Bool :=
  a.exclude.any fun glob =>
    glob.matchesText path.toList || glob.matchesText (Path.relativeTo path a.root).toList

/-- Whether a file is named like a message file. -/
def isMessageFile (path : String) : Bool := Path.extension? path = some ['f', 't', 'l']

/-- The message files below the root that are not excluded, in the order of their paths. -/
def files (a : Analysis) (tree : FileTree) : Except AnalysisError (List String) :=
  match tree.files a.root with
  | .ok paths =>
    .ok ((paths.filter fun path => isMessageFile path && !a.isExcluded path).mergeSort (· ≤ ·))
  | .error e => .error (.walk e)

/-- The reports on the given files, merged in their order; the first failure ends it. -/
def checkFiles (a : Analysis) (tree : FileTree) : List String → Except AnalysisError Report
  | [] => .ok .empty
  | path :: paths =>
    match a.checkFile tree path with
    | .error e => .error e
    | .ok report =>
      match checkFiles a tree paths with
      | .error e => .error e
      | .ok rest => .ok (report ++ rest)

/-- The sorted report on all files. -/
def run (a : Analysis) (tree : FileTree) : Except AnalysisError Report :=
  match a.files tree with
  | .error e => .error e
  | .ok paths => (a.checkFiles tree paths).map Report.sort

end Analysis

end MessageLint
