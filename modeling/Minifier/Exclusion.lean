import Minifier.Glob
import Minifier.Path
import Minifier.Text.Blank

/-!
# Exclusions

An exclusion keeps files and directories out of a scan by a glob. One that is written with a
trailing slash concerns directories only; one that is rooted, or has a slash inside, is matched
against a whole relative path, any other one against each name of it. Main definitions:
`Exclusion.parse?`, `Exclusion.excludes`.
-/

set_option autoImplicit false

namespace Minifier

/-- An exclusion: its glob, whether it concerns directories only, and whether it is matched against
whole paths. -/
structure Exclusion where
  glob : String
  directoriesOnly : Bool
  wholePath : Bool
  deriving DecidableEq, Repr

namespace Exclusion

/-- Reads an exclusion. Blanks around it and slashes at its ends are no part of the glob; nothing
is excluded when nothing is left. -/
def parse? (raw : String) : Option Exclusion :=
  let isSlash (c : Char) : Bool := c == '/'
  let chars := Chars.trim raw.toList
  let back := chars.reverse.dropWhile isSlash
  let inner := back.reverse.dropWhile isSlash
  if inner.isEmpty then none
  else
    some {
      glob := String.ofList inner
      directoriesOnly := chars.getLast?.any isSlash
      wholePath := back.getLast?.any isSlash || inner.any isSlash }

/-- Reads several exclusions. -/
def parseAll (raws : List String) : List Exclusion :=
  raws.filterMap parse?

/-- Whether an exclusion concerns a relative path, of a directory or of a file. -/
def excludes (exclusion : Exclusion) (path : String) (isDirectory : Bool) : Bool :=
  if exclusion.directoriesOnly && !isDirectory then false
  else if exclusion.wholePath then Glob.accepts exclusion.glob path
  else (slashParts path).any (Glob.accepts exclusion.glob)

end Exclusion

end Minifier
