import Minifier.Disk.Access
import Minifier.Exclusion
import Minifier.Kind
import Minifier.Log

/-!
# Discovering files

A scan lists the supported files below a directory: the files of a directory in the order of their
names, then those of its subdirectories in the order of theirs. Directories that a version control
system or a package manager keeps, those that the caller skips and those that an exclusion concerns
are not entered, and links to directories neither.
-/

set_option autoImplicit false

namespace Minifier

/-- A file that a scan has found. -/
structure SourceFile where
  path : Path
  relative : String
  kind : Kind
  deriving DecidableEq, Repr

/-- Why a directory cannot be scanned. -/
inductive DiscoveryError where
  | missing (root : String)
  | notADirectory (root : String)
  | path (error : PathError)
  deriving DecidableEq, Repr

/-- The wording of the errors that the scan itself finds. -/
def DiscoveryError.message? : DiscoveryError → Option String
  | .missing root => some ("Source directory not found: " ++ root)
  | .notADirectory root => some ("Source path is not a directory: " ++ root)
  | .path _ => none

namespace Discovery

/-- The directories that no scan enters. -/
def alwaysSkipped : List String :=
  [".git", ".hg", ".svn", "node_modules"]

/-- The text of the names of a relative path. -/
def relativeText (names : List String) : String :=
  "/".intercalate names

/-- Entries in the order of their names. -/
def sorted (entries : List (String × Entry)) : List (String × Entry) :=
  entries.mergeSort fun a b => !(b.1 < a.1)

/-- Whether an entry counts as a directory: it is one, or a link that leads to one. -/
def leadsToDirectory (disk : Disk) (place : Location) (entry : Entry) : Bool :=
  match entry with
  | .directory => true
  | .file _ => false
  | .link _ =>
    match disk.isDirectory? ⟨.root, place⟩ with
    | .ok answer => answer
    | .error _ => false

/-- What a scan leaves out: exclusions, and places of directories. -/
structure Omissions where
  exclusions : List Exclusion
  directories : List Location

/-- Whether a file at a relative path is left out. -/
def Omissions.hasFile (omissions : Omissions) (relative : List String) : Bool :=
  omissions.exclusions.any fun exclusion => exclusion.excludes (relativeText relative) false

/-- Whether a directory at a place, with a relative path, is left out. -/
def Omissions.hasDirectory (omissions : Omissions) (place : Location) (relative : List String) :
    Bool :=
  place.getLast?.any alwaysSkipped.contains || omissions.directories.contains place ||
    omissions.exclusions.any fun exclusion => exclusion.excludes (relativeText relative) true

/-- The relative paths of the files below a place, which itself has a relative path; the number
bounds the depth. -/
def filesBelow (disk : Disk) (omissions : Omissions) :
    Nat → Location → List String → List (List String)
  | 0, _, _ => []
  | depth + 1, place, relative =>
    let below := sorted (disk.entriesBelow place)
    let files := below.filterMap fun (name, entry) =>
      let path := relative ++ [name]
      if leadsToDirectory disk (place ++ [name]) entry || omissions.hasFile path then none
      else some path
    let directories := below.filterMap fun (name, entry) =>
      if entry.isDirectory && !omissions.hasDirectory (place ++ [name]) (relative ++ [name]) then
        some name
      else none
    files ++ directories.flatMap fun name =>
      filesBelow disk omissions depth (place ++ [name]) (relative ++ [name])

/-- The supported file at a relative path below a base, if its suffix is wanted. -/
def sourceFile? (base : Path) (wanted : List String) (relative : List String) : Option SourceFile :=
  let path : Path := ⟨base.anchor, base.names ++ relative⟩
  if wanted.contains (lowerCase path.suffix) then
    (Kind.ofPath? path).map fun kind => ⟨path, relativeText relative, kind⟩
  else none

/-- The directory that a scan starts at, as a path without links. -/
def baseOf (disk : Disk) (root : String) : Except DiscoveryError Path := do
  let path ← (disk.expandHome (Path.ofString root)).mapError .path
  let base ← (disk.resolve path).mapError .path
  let probe (answer : Except DiskError Bool) : Except DiscoveryError Bool :=
    answer.mapError fun error => .path (.disk error)
  if !(← probe (disk.exists? base)) then throw (.missing root)
  if !(← probe (disk.isDirectory? base)) then throw (.notADirectory root)
  return base

/-- The place that a base leads to. Its path has links left where it went through one without
end. -/
def placeOf (disk : Disk) (base : Path) : Location :=
  match disk.locate true base with
  | .ok (.taken place _) => place
  | _ => base.names

/-- The places of resolved paths. A path behind two slashes is equal to that of no place. -/
def placesOf (paths : List Path) : List Location :=
  (paths.filter fun path => path.anchor == .root).map Path.names

/-- The supported files below a directory whose suffix is one of the given ones. -/
def sourceFiles (disk : Disk) (exclusions : List Exclusion) (root : String) (suffixes : List String)
    (skipped : List Path) : ExceptT DiscoveryError Logged (List SourceFile) := do
  let base ← (baseOf disk root : Except DiscoveryError Path)
  let directories ← (skipped.mapM fun path =>
    (disk.resolve path).mapError DiscoveryError.path : Except DiscoveryError (List Path))
  let omissions : Omissions := ⟨exclusions, placesOf directories⟩
  let found := (filesBelow disk omissions (disk.entries.length + 1) (placeOf disk base) []).filterMap
    (sourceFile? base (suffixes.map lowerCase))
  Logged.tell .debug "scanner"
    ("Discovered " ++ toString found.length ++ " supported files under " ++ base.toString)
  return found

end Discovery

end Minifier
