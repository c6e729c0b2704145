import Minifier.ByteSize
import Minifier.Discovery
import Minifier.Header
import Minifier.Settings.Basic

/-!
# Failures

Everything that can end a run early, in one type. What kind of failure it is decides how the command
and the service answer.
-/

set_option autoImplicit false

namespace Minifier

/-- The kinds of failures. -/
inductive Nature where
  | settings
  | value
  | encoding
  | runtime
  | overflow
  | index
  | key
  | attribute
  | missingTemplate
  | missingFile
  | notADirectory
  | isADirectory
  | alreadyThere
  | denied
  | system
  | pattern
  deriving DecidableEq, Repr

/-- Why a run ends early. -/
inductive Failure where
  | path (error : PathError)
  | discovery (error : DiscoveryError)
  | settings (error : SettingsError)
  | encoding (fault : Utf8.Fault)
  | rules (unknown : UnknownRuleSet)
  | pattern (fault : Pattern.Fault)
  | template (missing : MissingTemplate)
  | size (error : SizeTooLarge)
  deriving DecidableEq, Repr

/-- The kind of failure that an error of the disk is. -/
def DiskError.nature : DiskError → Nature
  | .missing => .missingFile
  | .notADirectory => .notADirectory
  | .isADirectory => .isADirectory
  | .alreadyThere => .alreadyThere
  | .denied => .denied
  | .tooManyLinks => .system
  | .nameTooLong => .system
  | .nullInName => .value

/-- The name of an error of the disk in a report. -/
def DiskError.name : DiskError → String
  | .missing => "FileNotFoundError"
  | .notADirectory => "NotADirectoryError"
  | .isADirectory => "IsADirectoryError"
  | .alreadyThere => "FileExistsError"
  | .denied => "PermissionError"
  | .tooManyLinks => "OSError"
  | .nameTooLong => "OSError"
  | .nullInName => "ValueError"

/-- The wording of an error of the disk, where the program words it. -/
def DiskError.message? : DiskError → Option String
  | .nullInName => some "embedded null byte"
  | _ => none

/-- The kind of failure that a path gives rise to. -/
def PathError.nature : PathError → Nature
  | .unknownHome => .runtime
  | .linkLoop _ => .runtime
  | .disk error => error.nature

/-- The wording of an error of a path, where the program words it. -/
def PathError.message? : PathError → Option String
  | .unknownHome => some "Could not determine home directory."
  | .linkLoop path => some ("Symlink loop from " ++ quoted path.toString)
  | .disk error => error.message?

/-- The kind of failure that a fault of a value is. -/
def Yaml.Fault.nature : Yaml.Fault → Nature
  | .malformed => .settings
  | .codePoint code => if code < Yaml.codeLimit then .value else .overflow
  | .tooLargeForDecimal => .overflow
  | .emptyNumeral => .index
  | .notATruthValue => .key
  | .notAMoment => .attribute
  | _ => .value

/-- The kind of failure that an error of settings is. -/
def SettingsError.nature : SettingsError → Nature
  | .value fault => fault.nature
  | _ => .settings

/-- The kind of failure that a fault of a pattern is. -/
def Pattern.Fault.nature : Pattern.Fault → Nature
  | .malformed => .pattern
  | .repeatTooLarge => .overflow
  | .numeralTooLong _ => .value
  | .mixedAlphabets => .value

namespace Failure

/-- The kind of a failure. -/
def nature : Failure → Nature
  | .path error => error.nature
  | .discovery (.missing _) => .missingFile
  | .discovery (.notADirectory _) => .notADirectory
  | .discovery (.path error) => error.nature
  | .settings error => error.nature
  | .encoding _ => .encoding
  | .rules _ => .value
  | .pattern fault => fault.nature
  | .template _ => .missingTemplate
  | .size _ => .overflow

/-- The wording of a failure, where the program words it. -/
def message? : Failure → Option String
  | .path error => error.message?
  | .discovery (.path error) => error.message?
  | .discovery error => error.message?
  | .settings error => error.message?
  | .encoding fault => some fault.message
  | .rules unknown => some unknown.message
  | .pattern .malformed => none
  | .pattern fault => some fault.message
  | .template _ => none
  | .size error => some error.message

end Failure

end Minifier
