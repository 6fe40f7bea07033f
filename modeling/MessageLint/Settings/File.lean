-- SUMMARY: Settings from a file, in the format that its name tells.
import MessageLint.Settings.Toml
import MessageLint.Settings.Yaml

/-!
# Settings from files

A file whose name ends in `.toml`, in any case, is in TOML; any other is in YAML.
-/

namespace MessageLint.Settings

def isTomlPath (path : String) : Bool :=
  (Path.extension? path).any fun ext => ext.map Char.toLower = ['t', 'o', 'm', 'l']

/-- The settings in the file at a path. -/
def ofFile (tree : FileTree) (path : String) : Except SettingsError Settings :=
  match tree.readText path with
  | .ok text => if isTomlPath path then ofToml text else ofYaml text
  | .error fault => .error (.unreadable path fault)

end MessageLint.Settings
