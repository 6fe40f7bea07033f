-- SUMMARY: The texts of help and of the list of rules.
import MessageLint.CommandLine.Request
import MessageLint.Rule

/-!
# Help

Help is a few blocks of text with an empty line between them. Its long form gives each option a
paragraph.
-/

namespace MessageLint.CommandLine

def programName : String := "fluent-lint"

def versionText : String := programName ++ " 0.1.0\n"

def spaces (n : Nat) : String := String.ofList (List.replicate n ' ')

/-- The text with spaces behind it, up to a width. -/
def padded (width : Nat) (text : String) : String := text ++ spaces (width - text.length)

def Subcommand.description : Subcommand → String
  | .check => "Lint every .ftl file under a directory"
  | .listRules => "List available rules"
  | .init => "Write a default config.yml in the current directory"

namespace Opt

/-- How the option is written. -/
def usage (o : Opt) : String :=
  let letter := match o.letter with
    | some c => "-" ++ c.toString ++ ", "
    | none => "    "
  let value := if o.takesValue then " <" ++ o.long.map Char.toUpper ++ ">" else ""
  letter ++ "--" ++ o.long ++ value

def description : Opt → String
  | verbose => "Enable verbose output"
  | config => "Path to configuration file (YAML, or TOML with a .toml extension)"
  | format => "Output format"
  | rules => "Only report these rules (comma-separated codes or names)"
  | exclude => "Exclude patterns (can be specified multiple times)"
  | force => "Overwrite existing config"
  | help => "Print help"
  | version => "Print version"

end Opt

/-- Where a line of the long form begins. -/
def paragraphIndent : String := spaces 10

/-- What a line on an option of a subcommand says. -/
def shortNote (level : Option Subcommand) (o : Opt) : String :=
  match level, o with
  | some .check, .format =>
    o.description ++ " [default: text] [possible values: text, json, compact]"
  | some .check, .help => o.description ++ " (see more with '--help')"
  | _, _ => o.description

/-- What the paragraphs on an option of a check say. -/
def longNote (o : Opt) : List (List String) :=
  match o with
  | .format =>
    [[o.description],
      ["Possible values:",
        "- text:    Report blocks, with syntax errors rendered as diagnostics",
        "- json:    JSON output",
        "- compact: One-line-per-violation compact format", "", "[default: text]"]]
  | .help => [[o.description ++ " (see a summary with '-h')"]]
  | _ => [[o.description]]

def optionLines (level : Option Subcommand) : List String :=
  let options := Opt.of level
  let width := (options.map (·.usage.length)).foldl max 0
  options.map fun o => "  " ++ padded width o.usage ++ "  " ++ shortNote level o

def optionParagraphs : List String :=
  let paragraphs (o : Opt) := (longNote o).map (·.map (paragraphIndent ++ ·))
  let lines (o : Opt) := ("  " ++ o.usage) :: [""].intercalate (paragraphs o)
  [""].intercalate ((Opt.of (some .check)).map lines)

def commandLines : List String :=
  let line (name description : String) := "  " ++ padded 10 name ++ "  " ++ description
  Subcommand.all.map (fun s => line s.name s.description) ++
    [line "help" "Print this message or the help of the given subcommand(s)"]

def pathDescription : String := "Directory to analyze (default: current directory)"

/-- The lines of help. -/
def helpLines (of : Option Subcommand) (isLong : Bool) : List String :=
  match of with
  | none =>
    ["CLI tool for the fluent-lint Fluent resource linter", "",
      "Usage: " ++ programName ++ " [OPTIONS] <COMMAND>", "", "Commands:"] ++ commandLines ++
      ["", "Options:"] ++ optionLines none
  | some .check =>
    let arguments :=
      if isLong then
        ["  [PATH]", paragraphIndent ++ pathDescription, paragraphIndent,
          paragraphIndent ++ "[default: .]"]
      else
        ["  [PATH]  " ++ pathDescription ++ " [default: .]"]
    [Subcommand.check.description, "", "Usage: " ++ programName ++ " check [OPTIONS] [PATH]", "",
      "Arguments:"] ++ arguments ++ ["", "Options:"] ++
      (if isLong then optionParagraphs else optionLines of)
  | some sub =>
    [sub.description, "", "Usage: " ++ programName ++ " " ++ sub.name ++ " [OPTIONS]", "",
      "Options:"] ++ optionLines of

/-- Lines as a text. -/
def unlines (lines : List String) : String := String.join (lines.map (· ++ "\n"))

def helpText (of : Option Subcommand) (isLong : Bool) : String := unlines (helpLines of isLong)

def helpOnHelpText : String :=
  unlines
    ["Print this message or the help of the given subcommand(s)", "",
      "Usage: " ++ programName ++ " help [COMMAND]...", "", "Arguments:",
      "  [COMMAND]...  Print help for the subcommand(s)"]

/-- All rules in a table, with notes on how they are turned on. -/
def rulesText : String :=
  let row (code name description : String) :=
    padded 6 code ++ " " ++ padded 32 name ++ " " ++ description
  unlines <|
    ["Available rules:", "", row "Code" "Name" "Description",
      String.ofList (List.replicate 100 '-')] ++
    Rule.all.map (fun r => row r.code r.name r.description) ++
    ["", "Rules are off unless enabled in config.yml (see \x60" ++ programName ++ " init\x60).",
      "Use --rules to report only some of the enabled rules, e.g.:",
      "  " ++ programName ++ " check --rules ID01,TE05",
      "  " ++ programName ++ " check --rules three-dot-ellipsis"]

end MessageLint.CommandLine
