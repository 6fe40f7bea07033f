-- SUMMARY: What a run does with a tree of files.
import MessageLint.CommandLine.Check

/-!
# Runs

A run takes the arguments and a tree of files, and has an `Outcome`: an exit code, what it puts out,
and the files that it writes. The code is 0 when all is well, 1 when problems are found or something
is wrong, and 2 when the arguments are no request.
-/

namespace MessageLint.CommandLine

structure Outcome where
  code : Nat
  output : String
  fault : Option Fault
  /-- The syntax errors that are drawn. -/
  drawn : List FileError
  /-- The files that get another content, under every path that leads to them. -/
  written : List (String × String)
  deriving DecidableEq, Repr, Inhabited

namespace Outcome

/-- Something is put out, and that is all. -/
def shows (output : String) : Outcome := ⟨0, output, none, [], []⟩

def fails (f : Fault) : Outcome := ⟨1, "", some f, [], []⟩

/-- The arguments are no request. -/
def usage : Outcome := ⟨2, "", none, [], []⟩

end Outcome

-- ---------------------------------------------------------------------------
-- A first configuration
-- ---------------------------------------------------------------------------

/-- A configuration that enables every rule except those that forbid features. -/
def firstSettings : String :=
  unlines
    ["# fluent-lint configuration", "#",
      "# Every rule is off unless it is listed here. Syntax rules (SY*) describe",
      "# Fluent features the project does not use: \x60disabled: true\x60 reports them.",
      "# Run \x60fluent-lint list-rules\x60 for the full catalogue.", "", "# Comments", "RC01:",
      "  enabled: true", "RC02:", "  enabled: true", "RC03:", "  enabled: true", "GC01:",
      "  enabled: true", "GC02:", "  enabled: true", "GC03:", "  enabled: true", "GC04:",
      "  enabled: true", "", "# Identifiers", "MI01:", "  enabled: true", "ID01:",
      "  enabled: true", "  exclusions:", "    files: []", "    messages: []", "ID02:",
      "  enabled: true", "  min_length: 9", "  exclusions:", "    files: []", "    messages: []",
      "", "# Syntax", "SY01:", "  disabled: false", "SY02:", "  disabled: false", "SY03:",
      "  disabled: false", "SY04:", "  disabled: false", "SY05:", "  disabled: false", "",
      "# Typography", "TE01:", "  enabled: true", "TE02:", "  enabled: true", "TE03:",
      "  enabled: true", "TE04:", "  enabled: true", "TE05:", "  enabled: true"]

def firstSettingsName : String := "config.yml"

/-- Where the first configuration is written. -/
def firstSettingsPath : String := Path.join "." firstSettingsName

/-- What is said once the first configuration is written. -/
def nextSteps : String :=
  unlines
    ["Created " ++ firstSettingsPath, "", "Next steps:",
      "  1. Edit " ++ firstSettingsName ++ " to configure rules",
      "  2. Run: " ++ programName ++ " check --config " ++ firstSettingsName ++ " <l10n-dir>"]

/-- Writes a first configuration; one that is there stays, unless it is to be replaced. -/
def writeSettings (tree : FileTree) (force : Bool) : Outcome :=
  if tree.hasEntry firstSettingsPath && !force then
    .fails (.occupied firstSettingsPath)
  else
    match tree.writeText firstSettingsPath firstSettings with
    | .error fault => .fails (.unwritable firstSettingsPath fault)
    | .ok after => { Outcome.shows nextSteps with written := tree.changes after }

-- ---------------------------------------------------------------------------
-- Runs
-- ---------------------------------------------------------------------------

/-- The outcome of a check; `folder` is where a configuration is looked for if none is given. -/
def runCheck (tree : FileTree) (folder : Option String) (o : CheckOptions) : Outcome :=
  match check tree folder o with
  | .error f => .fails f
  | .ok r =>
    let p := print tree o r
    ⟨if r.hasProblems then 1 else 0, p.text, none, p.drawn, []⟩

/-- The outcome of a run with these arguments. -/
def run (tree : FileTree) (folder : Option String) (args : List String) : Outcome :=
  match Request.ofArguments args with
  | none => .usage
  | some (.check o) => runCheck tree folder o
  | some .listRules => .shows rulesText
  | some (.init force) => writeSettings tree force
  | some (.help of isLong) => .shows (helpText of isLong)
  | some .helpOnHelp => .shows helpOnHelpText
  | some .version => .shows versionText

end MessageLint.CommandLine
