import Minifier.Yaml.Fault

/-!
# Tokens of YAML

The tokens that a YAML text is made of. Block collections have tokens for their start and end,
which indentation stands for in the text.
-/

set_option autoImplicit false

namespace Minifier

namespace Yaml

/-- A line that says how a document is written. -/
inductive Directive where
  | version (major minor : Nat)
  | tagHandle (handle replacement : String)
  | other
  deriving DecidableEq, Repr

/-- A tag as written: with a handle, or in full. -/
structure TagText where
  handle : Option String
  suffix : String
  deriving DecidableEq, Repr

/-- A token. A scalar is plain when nothing but its spelling says what it is. -/
inductive Token where
  | streamEnd
  | directive (directive : Directive)
  | documentStart
  | documentEnd
  | blockSequenceStart
  | blockMappingStart
  | blockEnd
  | flowSequenceStart
  | flowSequenceEnd
  | flowMappingStart
  | flowMappingEnd
  | blockEntry
  | flowEntry
  | key
  | value
  | alias (name : String)
  | anchor (name : String)
  | tag (tag : TagText)
  | scalar (plain : Bool) (text : List Char)
  deriving DecidableEq, Repr

/-- The tokens of a text up to its end, or up to a fault. -/
structure TokenList where
  tokens : List Token
  fault : Option Fault
  deriving DecidableEq, Repr

end Yaml

end Minifier
