import Minifier.Text.Case

/-!
# Kinds of files

The five source formats, their names and the file suffixes that stand for them. A name that is no
kind is an error of its own, `UnknownKind`.
-/

set_option autoImplicit false

namespace Minifier

/-- A source format. -/
inductive Kind where
  | php
  | sql
  | javaScript
  | css
  | vue
  deriving DecidableEq, Repr

namespace Kind

/-- All kinds, in the order in which they are listed to a user. -/
def all : List Kind :=
  [.php, .sql, .javaScript, .css, .vue]

/-- The name of a kind. -/
def name : Kind → String
  | .php => "generic-source"
  | .sql => "structured-query"
  | .javaScript => "script"
  | .css => "style"
  | .vue => "composite-markup"

/-- The suffix of the files of a kind. -/
def suffix : Kind → String
  | .php => ".php"
  | .sql => ".sql"
  | .javaScript => ".js"
  | .css => ".css"
  | .vue => ".vue"

/-- The suffixes of all kinds. -/
def suffixes : List String :=
  [php, sql, javaScript, css, vue].map suffix

/-- The kind of a given name. -/
def ofName? (name : String) : Option Kind :=
  all.find? fun kind => kind.name == name

/-- The kind whose files have a given suffix, in any letter case. -/
def ofSuffix? (suffix : String) : Option Kind :=
  all.find? fun kind => kind.suffix == lowerCase suffix

end Kind

/-- A name that is no kind. -/
structure UnknownKind where
  name : String
  deriving DecidableEq, Repr

/-- The wording of the error, which lists the kinds. -/
def UnknownKind.message (unknown : UnknownKind) : String :=
  "Unsupported file kind '" ++ unknown.name ++ "' (expected one of: " ++
    ", ".intercalate (Kind.all.map Kind.name) ++ ")"

/-- The kind of a given name, or the error that there is none. -/
def Kind.resolve (name : String) : Except UnknownKind Kind :=
  match ofName? name with
  | some kind => .ok kind
  | none => .error ⟨name⟩

end Minifier
