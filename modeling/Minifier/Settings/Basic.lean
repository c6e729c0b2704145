import Minifier.Path
import Minifier.RuleSet.BuiltIn
import Minifier.Yaml.Value

/-!
# Settings

Settings name what a run leaves out, where it writes, where it logs, and which lists of the
built-in rule sets it replaces. They are read from a mapping; entries of the wrong kind count as
absent, except that groups have to be complete. Main definitions: `Settings.ofValues`,
`Settings.ofText`.
-/

set_option autoImplicit false

namespace Minifier

/-- The settings of a run. The lists that replace those of a rule set come with its name. -/
structure Settings where
  root : Path
  excludePaths : List String := []
  output : Option Path := none
  logFile : Option Path := none
  rules : List (String × Overrides) := []
  deriving DecidableEq, Repr

/-- What can be wrong with the text of settings. -/
inductive SettingsError where
  | malformed (file : String)
  | notAMapping (file : String)
  | groupsNotAList
  | incompleteGroup
  | value (fault : Yaml.Fault)
  deriving DecidableEq, Repr

/-- The wording of an error, where it has one. -/
def SettingsError.message? : SettingsError → Option String
  | .malformed file => some ("Failed to parse " ++ file)
  | .notAMapping file => some (file ++ " must contain a mapping at the root")
  | .groupsNotAList => some "groups must be a list of \x7bname, pattern\x7d mappings"
  | .incompleteGroup => some "each group needs a name and a pattern"
  | .value fault => fault.message?

namespace Settings

open Yaml (Scalar Value Values)

/-! ## Texts of scalars -/

/-- The text of an integer, unless it has more digits than are written out. -/
def intText (n : Int) : Except Yaml.Fault String :=
  if Nat.pow 10 Integer.digitLimit ≤ n.natAbs then .error .numberTooLong else .ok (toString n)

/-- A byte inside quotes. -/
def quotedByte (quote : Char) (b : UInt8) : List Char :=
  let c := Char.ofNat b.toNat
  if c == quote || c == '\\' then ['\\', c]
  else if c == '\t' then ['\\', 't']
  else if c == '\n' then ['\\', 'n']
  else if c == '\r' then ['\\', 'r']
  else if b < 0x20 || 0x7F ≤ b then
    let digit (n : Nat) : Char := (Nat.toDigits 16 n).headD '0'
    ['\\', 'x', digit (b.toNat / 16), digit (b.toNat % 16)]
  else [c]

/-- Bytes between quotes, of the kind that the bytes do not have. -/
def bytesText (bytes : Bytes) : String :=
  let quote := if bytes.contains 0x27 && !bytes.contains 0x22 then '"' else '\''
  String.ofList ('b' :: quote :: bytes.flatMap (quotedByte quote) ++ [quote])

/-- The text of any scalar. -/
def scalarText : Scalar → Except Yaml.Fault String
  | .null => .ok "None"
  | .bool b => .ok (if b then "True" else "False")
  | .int n => intText n
  | .float x => .ok x.text
  | .text s => .ok s
  | .bytes b => .ok (bytesText b)
  | .moment m => .ok m.text

/-! ## Reading values -/

/-- A member of a mapping. -/
def member (values : Values) (key : String) (entries : List (Scalar × Nat)) : Value :=
  match entries.find? fun (name, _) => name == .text key with
  | some (_, number) => values.at number
  | none => .scalar .null

/-- The entries of a mapping; any other value has none. -/
def entriesOf : Value → List (Scalar × Nat)
  | .mapping entries => entries
  | _ => []

/-- The text of a text or a number. -/
def textOf? : Value → Except Yaml.Fault (Option String)
  | .scalar (.text s) => .ok (some s)
  | .scalar (.int n) => (intText n).map some
  | .scalar (.float x) => .ok (some x.text)
  | _ => .ok none

/-- The text of an item of a list: of a text, a number or a truth value. -/
def itemText? : Value → Except Yaml.Fault (Option String)
  | .scalar (.bool b) => (scalarText (.bool b)).map some
  | other => textOf? other

/-- The texts of a list, or of a text alone; any other value has none. -/
def textsOf (values : Values) : Value → Except Yaml.Fault (List String)
  | .scalar (.text s) => .ok [s]
  | .scalar (.bytes b) => .ok (b.map fun byte => toString byte.toNat)
  | .list items => do
    let texts ← items.mapM fun number => itemText? (values.at number)
    return texts.filterMap id
  | _ => .ok []

/-- The texts of a member that is there. -/
def memberTexts? (values : Values) (key : String) (entries : List (Scalar × Nat)) :
    Except Yaml.Fault (Option (List String)) :=
  if entries.any fun (name, _) => name == .text key then
    (textsOf values (member values key entries)).map some
  else .ok none

/-- Lifts a fault of a value. -/
def ofValue {α : Type} (answer : Except Yaml.Fault α) : Except SettingsError α :=
  answer.mapError .value

/-- A group: a mapping with a name and a pattern, neither of them empty. -/
def groupOf (values : Values) (value : Value) : Except SettingsError (String × String) := do
  let entries := entriesOf value
  let name ← ofValue (textOf? (member values "name" entries))
  let pattern ← ofValue (textOf? (member values "pattern" entries))
  match name, pattern with
  | some name, some pattern =>
    if name.isEmpty || pattern.isEmpty then throw .incompleteGroup else return (name, pattern)
  | _, _ => throw .incompleteGroup

/-- The groups of a list, if there is one. -/
def groupsOf? (values : Values) (value : Value) :
    Except SettingsError (Option (List (String × String))) :=
  let none? (count : Nat) : Except SettingsError (Option (List (String × String))) :=
    if count = 0 then .ok (some []) else .error .incompleteGroup
  match value with
  | .scalar .null => .ok none
  | .list items => (items.mapM fun number => groupOf values (values.at number)).map some
  | .scalar (.bytes b) => none? b.length
  | .pairs count => none? count
  | _ => .error .groupsNotAList

/-- The lists of one rule set. -/
def overridesOf (values : Values) (entries : List (Scalar × Nat)) :
    Except SettingsError Overrides := do
  let including ← ofValue (memberTexts? values "include" entries)
  let excluding ← ofValue (memberTexts? values "exclude" entries)
  let cleanup ← ofValue (memberTexts? values "content_cleanup" entries)
  let groups ← groupsOf? values (member values "groups" entries)
  return { including, excluding, cleanup, groups }

/-- Puts lists under a name: in the place of those under the same name, or last. -/
def putRules (name : String) (changes : Overrides) :
    List (String × Overrides) → List (String × Overrides)
  | [] => [(name, changes)]
  | (other, old) :: rest =>
    if other = name then (name, changes) :: rest else (other, old) :: putRules name changes rest

/-- The lists of all rule sets that are given some, by their names in lower case. -/
def rulesOf (values : Values) (entries : List (Scalar × Nat)) :
    Except SettingsError (List (String × Overrides)) :=
  entries.foldlM (fun rules (name, number) => do
    let inner := entriesOf (values.at number)
    if inner.isEmpty then return rules
    let changes ← overridesOf values inner
    let name ← ofValue (scalarText name)
    return putRules (lowerCase name) changes rules) []

/-- A path below the root, if a text that is not empty names one. -/
def pathBelow? (root : Path) (text : Option String) : Option Path :=
  match text with
  | some text => if text.isEmpty then none else some (root.join (Path.ofString text))
  | none => none

/-- Whether a value counts as no settings at all. -/
def isNothing : Value → Bool
  | .scalar .null => true
  | .scalar (.bool b) => !b
  | .scalar (.int n) => n == 0
  | .scalar (.float x) => Scalar.floatIsInt x 0
  | .scalar (.text s) => s.isEmpty
  | .scalar (.bytes b) => b.isEmpty
  | .scalar (.moment _) => false
  | .list items => items.isEmpty
  | .pairs count => count == 0
  | .mapping entries => entries.isEmpty
  | .set members => members.isEmpty

/-- The settings of a file with a given name, whose paths start at a root. -/
def ofValues (root : Path) (file : String) (values : Values) : Except SettingsError Settings := do
  match values.outermost with
  | .mapping entries =>
    let output ← ofValue (textOf? (member values "output" entries))
    let logFile ← ofValue (textOf? (member values "log_file" entries))
    let rules ← rulesOf values (entriesOf (member values "rules" entries))
    let excludePaths ← ofValue (textsOf values (member values "exclude_paths" entries))
    return {
      root, excludePaths, rules
      output := pathBelow? root output
      logFile := pathBelow? root logFile }
  | other => if isNothing other then return { root } else throw (.notAMapping file)

/-- The settings that a text gives. A text of blanks alone gives the default ones. -/
def ofText (root : Path) (file : String) (text : List Char) : Except SettingsError Settings :=
  if (Chars.trim text).isEmpty then .ok { root }
  else
    match Yaml.read (String.ofList text) with
    | .ok values => ofValues root file values
    | .error .malformed => .error (.malformed file)
    | .error fault => .error (.value fault)

end Settings

end Minifier
