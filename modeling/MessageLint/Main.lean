-- SUMMARY: The program: reads the files that the arguments name, and carries out the outcome of the run.
import MessageLint.CommandLine.Run

/-!
# The program

All that is decided is decided by `CommandLine.run`. The tree of files that it gets is read before the
run, from the top of the system down: what the arguments name, the folders on the way there, and what
links lead to. Contents are read of message files and of configurations; nothing else is ever looked
into.
-/

open MessageLint FileTree

/-- The part of the system's files that is known, and the folders that are known with everything below. -/
structure Known where
  top : FileNode
  whole : List Place

namespace Known

/-- Puts a node at a place; what is known there stays, unless it is to be replaced. -/
def put (known : Known) (replaces : Bool) (place : Place) (node : FileNode) : Known :=
  if !replaces && (known.top.at? place).isSome then known
  else { known with top := known.top.put place node }

end Known

/-- A target that no link can have, since no file is named like this: it leads nowhere. -/
def nowhere : String := "/\x00"

mutual

/-- Follows the steps of a path in the files of the system, from a place that no link leads to. With
`isRead`, the content of a file at its end is read, and with `isWhole`, all that is below a folder. -/
partial def readSteps (isRead isWhole : Bool) (place : Place) (steps : List String) :
    StateT Known IO Unit := do
  match steps with
  | [] => if isWhole then readBelow place
  | step :: rest =>
    if step = "" ∨ step = "." then
      readSteps isRead isWhole place rest
    else if step = ".." then
      readSteps isRead isWhole place.dropLast rest
    else
      let child := place ++ [step]
      let file := System.mkFilePath [pathOf child]
      let found : Option IO.FS.FileType ←
        try some <$> (·.type) <$> file.symlinkMetadata catch _ => pure none
      match found with
      | some .dir =>
        modify (·.put false child .empty)
        readSteps isRead isWhole child rest
      | some .file =>
        let content ← if isRead then IO.FS.readBinFile file else pure .empty
        modify (·.put isRead child (.file content))
      | some .symlink =>
        let target ← try (·.toString) <$> IO.FS.realPath file catch _ => pure nowhere
        modify (·.put false child (.link target))
        if target ≠ nowhere then
          readSteps isRead isWhole [] (FileTree.steps target ++ rest)
      | some .other | none => pure ()

/-- Reads everything below a folder, and what its links lead to, once. -/
partial def readBelow (place : Place) : StateT Known IO Unit := do
  unless (← get).whole.contains place do
    modify fun known => { known with whole := place :: known.whole }
    for entry in ← (System.mkFilePath [pathOf place]).readDir do
      readSteps (Analysis.isMessageFile entry.fileName) true place [entry.fileName]

end

/-- Reads what a request names, as seen from the working folder. -/
def readRequest (working : Place) (folder : Option String) : CommandLine.Request →
    StateT Known IO Unit
  | .check o => do
    for path in o.settings.toList ++ (folder.map CommandLine.settingsIn).toList do
      readSteps true false (startOf working path) (steps path)
    readSteps false true (startOf working o.root) (steps o.root)
  | .init _ => readSteps true false working (steps CommandLine.firstSettingsPath)
  | _ => pure ()

def main (args : List String) : IO UInt32 := do
  let working := (steps (← IO.FS.realPath ".").toString).filter (· ≠ "")
  let folder := (← IO.getEnv "FLUENT_LINT_CONFIG_DIR").or
    ((← IO.appPath).parent.map (·.toString))
  let way := ⟨FileNode.empty.put working .empty, []⟩
  let known ← match CommandLine.Request.ofArguments args with
    | some request => Prod.snd <$> (readRequest working folder request).run way
    | none => pure way
  let outcome := CommandLine.run ⟨known.top, working⟩ folder args
  for (name, content) in outcome.written do
    IO.FS.writeFile name content
  for e in outcome.drawn do
    IO.eprintln e.block
  match outcome.fault with
  | some fault => IO.eprint fault.text
  | none => if outcome.code = 2 then IO.eprint (CommandLine.helpText none false)
  IO.print outcome.output
  return UInt32.ofNat outcome.code
