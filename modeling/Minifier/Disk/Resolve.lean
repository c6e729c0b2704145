import Minifier.Disk.Basic

/-!
# Following paths

`Disk.locate` follows a path as a file system does: name by name, through links, at most forty of
them. `Disk.realPath` gives the path without links that a path stands for, also where nothing
exists; a link that leads back to itself ends the resolution, and what is left of the path is kept.
-/

set_option autoImplicit false

namespace Minifier

/-- Where a path leads: to an entry, or to a free place in a directory. -/
inductive Spot where
  | taken (place : Location) (entry : Entry)
  | free (place : Location)
  deriving DecidableEq, Repr

namespace Disk

/-- The place where a path starts. -/
def startOf (disk : Disk) (path : Path) : Location :=
  if path.isAbsolute then [] else disk.workingDirectory

/-- The greatest length of a name, in bytes. -/
def nameLimit : Nat :=
  255

/-- The greatest number of links on the way to a place. -/
def linkLimit : Nat :=
  40

/-- Follows names from a directory on. `follow` goes on behind a link; the link that the last name
leads to is followed only if `last` says so. -/
def locateNames (disk : Disk) (follow : Location → List String → Except DiskError Spot)
    (last : Bool) : Location → List String → Except DiskError Spot
  | here, [] => .ok (.taken here .directory)
  | here, name :: rest =>
    if name = ".." then locateNames disk follow last here.dropLast rest
    else if nameLimit < name.utf8ByteSize then .error .nameTooLong
    else
      let next := here ++ [name]
      match disk.entryAt? next with
      | none => if rest.isEmpty then .ok (.free next) else .error .missing
      | some .directory => locateNames disk follow last next rest
      | some (.file content) =>
        if rest.isEmpty then .ok (.taken next (.file content)) else .error .notADirectory
      | some (.link target) =>
        if rest.isEmpty && !last then .ok (.taken next (.link target))
        else
          let aim := Path.ofString target
          follow (if aim.isAbsolute then [] else here) (aim.names ++ rest)

/-- Follows names through one link less than a given number. -/
def locateFrom (disk : Disk) (last : Bool) : Nat → Location → List String → Except DiskError Spot
  | 0 => fun _ _ => .error .tooManyLinks
  | links + 1 => locateNames disk (locateFrom disk last links) last

/-- Whether a text has the character that no path can hold. -/
def hasNull (path : Path) : Bool :=
  path.names.any fun name => name.toList.contains '\x00'

/-- Where a path leads. -/
def locate (disk : Disk) (last : Bool) (path : Path) : Except DiskError Spot :=
  if hasNull path then .error .nullInName
  else locateFrom disk last (linkLimit + 1) (disk.startOf path) path.names

/-- The entry that a path leads to, with links followed. -/
def stat (disk : Disk) (path : Path) : Except DiskError Entry := do
  match ← disk.locate true path with
  | .taken _ entry => return entry
  | .free _ => throw .missing

/-- The entry at a path itself, which may be a link. -/
def statLink (disk : Disk) (path : Path) : Except DiskError Entry := do
  match ← disk.locate false path with
  | .taken _ entry => return entry
  | .free _ => throw .missing

/-- Whether a path leads to an entry with a given property. A path that leads nowhere has none; an
error of any other kind stays one. -/
def probe (disk : Disk) (test : Entry → Bool) (path : Path) : Except DiskError Bool :=
  match disk.stat path with
  | .ok entry => .ok (test entry)
  | .error .missing => .ok false
  | .error .notADirectory => .ok false
  | .error .tooManyLinks => .ok false
  | .error .nullInName => .ok false
  | .error error => .error error

/-- Whether a path leads to anything. -/
def exists? (disk : Disk) (path : Path) : Except DiskError Bool :=
  disk.probe (fun _ => true) path

/-- Whether a path leads to a directory. -/
def isDirectory? (disk : Disk) (path : Path) : Except DiskError Bool :=
  disk.probe Entry.isDirectory path

/-- Whether a path leads to a regular file. -/
def isFile? (disk : Disk) (path : Path) : Except DiskError Bool :=
  disk.probe Entry.isFile path

/-! ## Paths without links -/

/-- What is known of the links met so far: the path each one stands for, or nothing while it is
being followed. -/
abbrev SeenLinks := List (Path × Option Path)

/-- The path that a path stands for, whether it could be followed to its end, and the links met. -/
structure RealPath where
  path : Path
  complete : Bool
  seen : SeenLinks

/-- The path one level up, without a look at the disk. -/
def above (path : Path) : Path :=
  match path.names.getLast? with
  | none => if path.isAbsolute then path else path.child ".."
  | some name => if name = ".." then path.child ".." else path.parent

/-- What is left of a text, taken from a path. -/
def joinRest (path : Path) (rest : List String) : Path :=
  path.join (Path.ofString ("/".intercalate rest))

/-- Resolves names taken from a path without links. `follow` resolves the text of a link. -/
def resolveNames (disk : Disk) (follow : SeenLinks → Path → String → RealPath) :
    SeenLinks → Path → List String → RealPath
  | seen, path, [] => ⟨path, true, seen⟩
  | seen, path, name :: rest =>
    if name = "" || name = "." then resolveNames disk follow seen path rest
    else if name = ".." then resolveNames disk follow seen (above path) rest
    else
      let next := path.child name
      match disk.statLink next with
      | .ok (.link target) =>
        match seen.lookup next with
        | some (some known) => resolveNames disk follow seen known rest
        | some none => ⟨joinRest next rest, false, seen⟩
        | none =>
          let found := follow ((next, none) :: seen) path target
          if found.complete then
            resolveNames disk follow ((next, some found.path) :: found.seen) found.path rest
          else ⟨joinRest found.path rest, false, found.seen⟩
      | _ => resolveNames disk follow seen next rest

/-- Resolves a text taken from a path without links, through at most a number of links that stand
behind one another. -/
def resolveText (disk : Disk) : Nat → SeenLinks → Path → String → RealPath
  | 0, seen, path, _ => ⟨path, false, seen⟩
  | depth + 1, seen, path, text =>
    let base : Path := if (Path.ofString text).isAbsolute then ⟨.root, []⟩ else path
    resolveNames disk (resolveText disk depth) seen base (slashParts text)

/-- Drops a name for every `..` after it. -/
def collapseNames : List String → List String → List String
  | done, [] => done.reverse
  | done, name :: rest =>
    if name = ".." then collapseNames done.tail rest else collapseNames (name :: done) rest

/-- The absolute path of a path, without `..` and without a look at the disk. -/
def absolutePath (disk : Disk) (path : Path) : Path :=
  let anchored : Path :=
    if path.isAbsolute then path else ⟨.root, disk.workingDirectory ++ path.names⟩
  { anchored with names := collapseNames [] anchored.names }

/-- The path without links that a path stands for. A link is met under at most two spellings, so
twice the number of entries is depth enough. -/
def realPath (disk : Disk) (path : Path) : Path :=
  disk.absolutePath
    (disk.resolveText (2 * disk.entries.length + 2) [] Path.here path.toString).path

/-- The path without links that a path stands for; a path through links without end is refused. -/
def resolve (disk : Disk) (path : Path) : Except PathError Path :=
  if hasNull path then .error (.disk .nullInName)
  else
    let real := disk.realPath path
    match disk.stat real with
    | .error .tooManyLinks => .error (.linkLoop real)
    | _ => .ok real

/-- The path with its leading tilde replaced by the home of the user; no other home is known. -/
def expandHome (disk : Disk) (path : Path) : Except PathError Path :=
  match path.anchor, path.names with
  | .working, first :: rest =>
    if first = "~" then .ok (disk.home.join ⟨.working, rest⟩)
    else if first.toList.head? = some '~' then .error .unknownHome
    else .ok path
  | _, _ => .ok path

end Disk

end Minifier
