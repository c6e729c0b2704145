import Minifier.Disk.Resolve

/-!
# Reading and writing

What a program can do with a disk: read a file, make directories, write a file, add to it.
-/

set_option autoImplicit false

namespace Minifier

namespace Disk

/-- The location of a path without links. -/
def locationOf (disk : Disk) (path : Path) : Location :=
  (disk.realPath path).names

/-- The content of the file that a path leads to. -/
def read (disk : Disk) (path : Path) : Except DiskError Bytes := do
  match ← disk.stat path with
  | .file content => return content
  | _ => throw .isADirectory

/-- The content of a file that may be protected against reading. -/
def readProtected (disk : Disk) (path : Path) : Except DiskError Bytes :=
  if !hasNull path && disk.unreadable.contains (disk.locationOf path) then .error .denied
  else disk.read path

/-- Makes one directory; its parent has to be there. -/
def makeDirectory (disk : Disk) (path : Path) : Except DiskError Disk := do
  match ← disk.locate false path with
  | .taken _ _ => throw .alreadyThere
  | .free place => return disk.put place .directory

/-- What to do after a failure to make a directory: nothing when it is there already. -/
def excuse (disk : Disk) (path : Path) (error : DiskError) : Except DiskError Unit :=
  match error with
  | .missing => .error .missing
  | .nullInName => .error .nullInName
  | error => do
    if ← disk.isDirectory? path then return () else throw error

/-- Makes a directory and those above it; the number bounds how many of them are tried. A failure
leaves the directories that were made before it. -/
def makeDirectories (path : Path) : Nat → Disk → Except DiskError Unit × Disk
  | 0, disk => (.error .missing, disk)
  | depth + 1, disk =>
    match disk.makeDirectory path with
    | .ok made => (.ok (), made)
    | .error .missing =>
      if path.parent = path then (.error .missing, disk)
      else
        match makeDirectories path.parent depth disk with
        | (.error error, below) => (.error error, below)
        | (.ok (), below) =>
          match below.makeDirectory path with
          | .ok made => (.ok (), made)
          | .error error => (below.excuse path error, below)
    | .error error => (disk.excuse path error, disk)

/-- Makes the directory that a path names, with all above it, unless it is there. -/
def ensureDirectory (disk : Disk) (path : Path) : Except DiskError Unit × Disk :=
  makeDirectories path (path.names.length + 1) disk

/-- The place that a path for writing leads to, and what the file there holds. -/
def openForWriting (disk : Disk) (path : Path) : Except DiskError (Location × Bytes) := do
  match ← disk.locate true path with
  | .taken _ .directory => throw .isADirectory
  | .taken place (.file content) =>
    if disk.unwritable.contains place then throw .denied else return (place, content)
  | .taken _ (.link _) => throw .tooManyLinks
  | .free place => if disk.unwritable.contains place then throw .denied else return (place, [])

/-- Writes a file anew. -/
def write (disk : Disk) (path : Path) (content : Bytes) : Except DiskError Disk := do
  let (place, _) ← disk.openForWriting path
  return disk.put place (.file content)

/-- Writes at the end of a file, which is made if it is missing. -/
def append (disk : Disk) (path : Path) (content : Bytes) : Except DiskError Disk := do
  let (place, before) ← disk.openForWriting path
  return disk.put place (.file (before ++ content))

/-- Writes a file anew, after the directories above it. A failure leaves the directories that were
made before it. -/
def save (disk : Disk) (path : Path) (content : Bytes) : Except DiskError Unit × Disk :=
  match disk.ensureDirectory path.parent with
  | (.error error, after) => (.error error, after)
  | (.ok (), after) =>
    match after.write path content with
    | .ok written => (.ok (), written)
    | .error error => (.error error, after)

end Disk

end Minifier
