-- SUMMARY: The check: from options to a report, and the report in each format.
import MessageLint.Analysis
import MessageLint.CommandLine.Help
import MessageLint.Json
import MessageLint.Settings.File

/-!
# Checking

A check loads the settings, restricts the rules, and analyses the folder; a fault on the way ends it
without a report (`Fault`). The report is written in one of three formats. In the text format a
syntax error is drawn with the text around it, as long as its file can be read, and only the place
where it is drawn differs from the plain report.
-/

namespace MessageLint.CommandLine

/-- Why a run ends without doing what was asked. -/
inductive Fault where
  | settings (path : String) (e : SettingsError)
  /-- Settings that do not fit together. -/
  | rules (e : SettingsError)
  | setup (e : AnalysisError)
  | analysis (e : AnalysisError)
  /-- There is a configuration already. -/
  | occupied (path : String)
  | unwritable (path : String) (fault : FileFault)
  deriving DecidableEq, Repr, Inhabited

namespace Fault

/-- What is wrong, outermost first. -/
def chain : Fault → List String
  | settings path e => ("Failed to load config: " ++ path) :: e.chain
  | rules e => "Invalid configuration" :: e.chain
  | setup e => "Failed to build analyzer" :: e.chain
  | analysis e => "Analysis failed" :: e.chain
  | occupied path =>
    ["Configuration file already exists at " ++ path ++ ". Use --force to overwrite."]
  | unwritable path fault => ["Failed to write " ++ path, fault.message]

/-- A text whose further lines begin with `indent`. -/
def indented (indent : String) (text : String) : String :=
  String.join (text.toList.map fun c => if c = '\n' then "\n" ++ indent else c.toString)

/-- The causes behind a fault, with numbers if there are several. -/
def causes : List String → String
  | [] => ""
  | [one] => "\nCaused by:\n    " ++ indented "    " one ++ "\n"
  | several =>
    let line (cause : String) (i : Nat) :=
      "    " ++ toString i ++ ": " ++ indented "       " cause ++ "\n"
    "\nCaused by:\n" ++ String.join (several.mapIdx fun i cause => line cause i)

/-- The fault as it is reported. What is wrong with a malformed configuration is left open, and the
text ends there. -/
def text (f : Fault) : String :=
  match f.chain with
  | [] => ""
  | top :: rest =>
    let all := "Error: " ++ top ++ "\n" ++ causes rest
    match f with
    | settings _ .malformed => (all.dropEnd 1).toString
    | _ => all

end Fault

-- ---------------------------------------------------------------------------
-- Settings and rules
-- ---------------------------------------------------------------------------

/-- The configuration in a folder for configurations. -/
def settingsIn (folder : String) : String := Path.join folder "config.yml"

/-- The configuration file: the one that is given, or that in the folder for configurations if there
is one. -/
def settingsPath? (tree : FileTree) (folder : Option String) (given : Option String) :
    Option String :=
  given.or ((folder.map settingsIn).filter tree.isFile)

def loadSettings (tree : FileTree) : Option String → Except Fault Settings
  | none => .ok .empty
  | some path => (Settings.ofFile tree path).mapError (.settings path)

/-- The rules that a filter names; pieces that name none are passed over. -/
def filterRules (filter : String) : List Rule :=
  (splitOn ',' filter.toList).filterMap fun piece => (Rule.ofText (String.ofList piece)).toOption

/-- Restricts a rule set to the rules that a filter names, if there is one. -/
def restrictTo (filter : Option String) (rules : RuleSet) : RuleSet :=
  match filter with
  | some filter => rules.restrict (filterRules filter)
  | none => rules

/-- The analysis that the options ask for. -/
def analysisOf (tree : FileTree) (folder : Option String) (o : CheckOptions) :
    Except Fault Analysis := do
  let settings ← loadSettings tree (settingsPath? tree folder o.settings)
  let rules ← settings.ruleSet.mapError .rules
  (Analysis.make tree o.root [restrictTo o.rules rules] o.exclude).mapError .setup

def check (tree : FileTree) (folder : Option String) (o : CheckOptions) : Except Fault Report := do
  let analysis ← analysisOf tree folder o
  (analysis.run tree).mapError .analysis

-- ---------------------------------------------------------------------------
-- Formats
-- ---------------------------------------------------------------------------

/-- What a report puts out, and the syntax errors that are drawn beside it. -/
structure Printout where
  text : String
  drawn : List FileError
  deriving DecidableEq, Repr, Inhabited

/-- Whether the file of a syntax error can be read, so that the error is drawn. -/
def isDrawn (tree : FileTree) (root : String) (e : FileError) : Bool :=
  (tree.readText (Path.join root e.location.file)).toOption.isSome

/-- The report in blocks. -/
def printText (tree : FileTree) (root : String) (r : Report) : Printout :=
  let drawn := r.fileErrors.filter (isDrawn tree root)
  let listed := r.fileErrors.filter (!isDrawn tree root ·)
  let text :=
    if r.hasProblems then
      unlines (listed.map (·.block) ++ r.violations.map (·.block) ++ [r.summary])
    else
      ""
  ⟨text, drawn⟩

/-- The report with a line for each problem. -/
def printCompact (r : Report) : Printout :=
  ⟨unlines (r.fileErrors.map (·.line) ++ r.violations.map (·.line)), []⟩

def printJson (r : Report) : Printout := ⟨(Json.ofReport r).text ++ "\n", []⟩

def print (tree : FileTree) (o : CheckOptions) (r : Report) : Printout :=
  match o.format with
  | .text => printText tree o.root r
  | .json => printJson r
  | .compact => printCompact r

end MessageLint.CommandLine
