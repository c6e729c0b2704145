import Minifier.Kind
import Minifier.Text.Parts

/-!
# Paths

A path is a list of names below an anchor: the working directory, or the root. A text is read name
by name; empty names and single dots carry nothing and are left out, while `..` stays, since what it
means depends on the links of the tree. Two leading slashes, and no more, are an anchor of their
own. Main definitions: `Path.ofString`, `Path.toString`, `Path.join`, `Path.parent`, `Path.suffix`.
-/

set_option autoImplicit false

namespace Minifier

/-- Where a path starts. -/
inductive Anchor where
  | working
  | root
  | doubleRoot
  deriving DecidableEq, Repr

/-- A path without empty names and single dots. -/
structure Path where
  anchor : Anchor
  names : List String
  deriving DecidableEq, Repr

/-- The names of a text between its slashes, empty ones included. -/
def slashParts (text : String) : List String :=
  (partsBetween '/' text.toList).map String.ofList

namespace Path

/-- The path that leads to the working directory. -/
def here : Path :=
  ⟨.working, []⟩

/-- The anchor that a text starts with. -/
def anchorOf (text : String) : Anchor :=
  match (text.toList.takeWhile (· == '/')).length with
  | 0 => .working
  | 2 => .doubleRoot
  | _ => .root

/-- Reads a path. -/
def ofString (text : String) : Path :=
  ⟨anchorOf text, (slashParts text).filter fun name => name != "" && name != "."⟩

/-- The text of an anchor. -/
def anchorText : Anchor → String
  | .working => ""
  | .root => "/"
  | .doubleRoot => "//"

/-- Writes a path; the path without names at the working directory is a dot. -/
def toString (path : Path) : String :=
  if path.anchor = .working && path.names.isEmpty then "."
  else anchorText path.anchor ++ "/".intercalate path.names

/-- Whether a path starts at the root. -/
def isAbsolute (path : Path) : Bool :=
  path.anchor != .working

/-- The path `path` taken from `base`; an absolute one stands alone. -/
def join (base path : Path) : Path :=
  if path.isAbsolute then path else ⟨base.anchor, base.names ++ path.names⟩

/-- The path of a name below a path. -/
def child (path : Path) (name : String) : Path :=
  ⟨path.anchor, path.names ++ [name]⟩

/-- The path without its last name. -/
def parent (path : Path) : Path :=
  ⟨path.anchor, path.names.dropLast⟩

/-- The last name of a path, empty when there is none. -/
def name (path : Path) : String :=
  path.names.getLast?.getD ""

/-- The last suffix of a name, with its dot: what follows the last dot, unless that dot opens or
ends the name. -/
def suffixOfName (name : String) : String :=
  let back := name.toList.reverse
  let ending := back.takeWhile (· != '.')
  match back.drop ending.length with
  | '.' :: _ :: _ => if ending.isEmpty then "" else String.ofList ('.' :: ending.reverse)
  | _ => ""

/-- The last suffix of the last name of a path. -/
def suffix (path : Path) : String :=
  suffixOfName path.name

/-- What leads from `base` to a path that starts with it. -/
def relativeTo? (path base : Path) : Option Path :=
  if path.anchor = base.anchor && base.names.isPrefixOf path.names then
    some ⟨.working, path.names.drop base.names.length⟩
  else none

end Path

/-- The kind of the file at a path, by its suffix. -/
def Kind.ofPath? (path : Path) : Option Kind :=
  Kind.ofSuffix? path.suffix

end Minifier
