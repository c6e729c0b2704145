import Minifier.Failure
import Minifier.Text.Lines

/-!
# Loading settings

Settings are looked for in a directory, under a fixed name, or in a file of their own. Where there
are none, the default ones are in force.
-/

set_option autoImplicit false

namespace Minifier

namespace Settings

/-- The name of the file that holds the settings of a directory. -/
def fileName : String :=
  ".fileminifier.yml"

/-- The path of the settings file that a path stands for. -/
def locate (disk : Disk) (path : Path) : Except PathError Path := do
  let path ← disk.expandHome path
  if ← (disk.isDirectory? path).mapError .disk then disk.resolve (path.child fileName)
  else disk.resolve path

/-- The text of a settings file. -/
def readText (disk : Disk) (file : Path) : Except Failure (List Char) := do
  let bytes ← (disk.read file).mapError fun error => .path (.disk error)
  let chars ← (Utf8.decodeStrict bytes).mapError .encoding
  return unifyLines chars

/-- The settings that a path stands for. -/
def load (disk : Disk) (path : Path) : Except Failure Settings := do
  let file ← (locate disk path).mapError .path
  let root ← (disk.resolve file.parent).mapError .path
  if !(← (disk.exists? file).mapError fun error => .path (.disk error)) then return { root }
  let text ← readText disk file
  (ofText root file.name text).mapError .settings

/-- The built-in rule set of a given name, with the lists of settings in force. -/
def ruleSet (settings : Settings) (name : String) : ExceptT Failure Logged RuleSet :=
  match RuleSet.named name with
  | .error unknown => throw (.rules unknown)
  | .ok rules =>
    match settings.rules.lookup rules.name with
    | none => return rules
    | some changes => ExceptT.mk do
      match ← (rules.override changes).run with
      | .ok changed => return .ok changed
      | .error fault => return .error (.pattern fault)

end Settings

end Minifier
