-- SUMMARY: Violations, unreadable files, and the report that collects them.
import MessageLint.LineIndex
import MessageLint.Rule

/-!
# Reports

A report holds the violations of rules, the files that are no resources, and the number of files
checked. Reports of single files are merged with `Report.append` and put in order by `Report.sort`,
which is stable: findings at one place keep the order in which they were made.
-/

namespace MessageLint

-- ---------------------------------------------------------------------------
-- Places
-- ---------------------------------------------------------------------------

/-- A place in a file, which is named as seen from the checked folder. -/
structure Location where
  file : String
  line : Nat
  column : Nat
  offset : Nat
  length : Nat
  deriving DecidableEq, Repr, Inhabited

namespace Location

/-- The order of reports: by file, then line, then column. -/
def le (a b : Location) : Bool :=
  a.file < b.file || a.file == b.file &&
    (a.line < b.line || a.line == b.line && a.column ≤ b.column)

/-- `file:line:column`. -/
def short (l : Location) : String :=
  l.file ++ ":" ++ toString l.line ++ ":" ++ toString l.column

/-- The two lines that open a block of a report. -/
def heading (l : Location) : String :=
  "File path: " ++ l.file ++ "\nPosition: line " ++ toString l.line ++ " column " ++
    toString l.column ++ "\n"

end Location

-- ---------------------------------------------------------------------------
-- Findings
-- ---------------------------------------------------------------------------

structure Violation where
  code : String
  rule : String
  location : Location
  message : String
  deriving DecidableEq, Repr, Inhabited

namespace Violation

def of (rule : Rule) (location : Location) (message : String) : Violation :=
  ⟨rule.code, rule.name, location, message⟩

/-- The violation in one line. -/
def line (v : Violation) : String := v.location.short ++ ": [" ++ v.code ++ "] " ++ v.message

/-- The violation as a block of three lines. -/
def block (v : Violation) : String :=
  v.location.heading ++ "Error (" ++ v.code ++ "): " ++ v.message ++ "\n"

end Violation

/-- A file that is no resource, with the place and the wording of its first fault. -/
structure FileError where
  location : Location
  message : String
  deriving DecidableEq, Repr, Inhabited

namespace FileError

def line (e : FileError) : String := e.location.short ++ ": syntax error: " ++ e.message

def block (e : FileError) : String :=
  e.location.heading ++ "Syntax error: " ++ e.message ++ "\n"

end FileError

-- ---------------------------------------------------------------------------
-- Reports
-- ---------------------------------------------------------------------------

structure Report where
  violations : List Violation
  fileErrors : List FileError
  filesChecked : Nat
  deriving DecidableEq, Repr, Inhabited

namespace Report

def empty : Report := ⟨[], [], 0⟩

def hasViolations (r : Report) : Bool := !r.violations.isEmpty

def hasProblems (r : Report) : Bool := r.hasViolations || !r.fileErrors.isEmpty

def append (r s : Report) : Report :=
  ⟨r.violations ++ s.violations, r.fileErrors ++ s.fileErrors, r.filesChecked + s.filesChecked⟩

instance : Append Report := ⟨append⟩

def sort (r : Report) : Report :=
  { r with
    violations := r.violations.mergeSort fun a b => a.location.le b.location
    fileErrors := r.fileErrors.mergeSort fun a b => a.location.le b.location }

/-- The counts in one line. -/
def summary (r : Report) : String :=
  "Found " ++ toString r.violations.length ++ " violation(s) and " ++
    toString r.fileErrors.length ++ " syntax error(s) in " ++ toString r.filesChecked ++ " file(s)"

/-- The whole report as text: a block and an empty line for each problem, files first, and the
summary at the end. Without problems there is no text. -/
def text (r : Report) : String :=
  if r.hasProblems then
    String.join (r.fileErrors.map (·.block ++ "\n")) ++
      String.join (r.violations.map (·.block ++ "\n")) ++ r.summary ++ "\n"
  else
    ""

end Report

end MessageLint
