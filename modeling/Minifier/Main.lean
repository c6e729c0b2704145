import Minifier.Command

/-!
# The program

The outer layer of the command line. The part of the file system that a call may look at is copied
into a disk, the call is answered on that disk, and what it has changed there is written back.
-/

set_option autoImplicit false

namespace Minifier

namespace Program

/-! ## Copying in -/

/-- The text of a location. -/
def placeText (place : Location) : String :=
  "/" ++ "/".intercalate place

/-- The location of the place that a text leads to, which has to exist. -/
def realPlace (text : String) : IO Location := do
  return (Path.ofString (← IO.FS.realPath text).toString).names

/-- Copies the content of a file; one that cannot be read is marked. -/
def copyContent (disk : Disk) (place : Location) : IO Disk := do
  match ← EIO.toBaseIO (IO.FS.readBinFile (placeText place)) with
  | .ok content => return disk.put place (.file content.toList)
  | .error _ =>
    return { disk.put place (.file []) with unreadable := place :: disk.unreadable }

/-- Copies what stands under a name in a directory. The content of a file is left out where `whole`
does not ask for it. -/
def copyEntry (disk : Disk) (directory : Location) (name : String) (whole : Bool) : IO Disk := do
  let place := directory ++ [name]
  let file := (← IO.FS.realPath (placeText directory)) / name
  match ← EIO.toBaseIO file.symlinkMetadata with
  | .error _ => return disk
  | .ok data =>
    match data.type with
    | .dir => return disk.put place .directory
    | .file => if whole then copyContent disk place else return disk.put place (.file [])
    | .symlink =>
      match ← EIO.toBaseIO (IO.FS.realPath file) with
      | .ok target => return disk.put place (.link target.toString)
      | .error _ => return disk.put place (.link name)
    | .other => return disk

/-- Copies what stands at a path and at the places above it. -/
partial def copyPath (disk : Disk) (path : Path) : IO Disk := do
  let mut disk := disk
  for length in [0 : path.names.length] do
    match ← EIO.toBaseIO (realPlace (placeText (path.names.take length))) with
    | .error _ => return disk
    | .ok directory =>
      let name := path.names.getD length ""
      if name != ".." then
        disk ← copyEntry disk directory name true
        match disk.entryAt? (directory ++ [name]) with
        | some (.link target) =>
          if target != name then disk ← copyPath disk (Path.ofString target)
        | _ => pure ()
  return disk

/-- Whether the content of a file can matter to a run over the directory that it stands in. -/
def isOfInterest (name : String) : Bool :=
  name == Settings.fileName || (Kind.ofPath? (Path.ofString name)).isSome

/-- Copies what stands below a directory. -/
partial def copyBelow (disk : Disk) (place : Location) : IO Disk := do
  let mut disk := disk
  for entry in ← (← IO.FS.realPath (placeText place)).readDir do
    let name := entry.fileName
    disk ← copyEntry disk place name (isOfInterest name)
    match disk.entryAt? (place ++ [name]) with
    | some .directory =>
      if !Discovery.alwaysSkipped.contains name then disk ← copyBelow disk (place ++ [name])
    | some (.link target) => disk ← copyPath disk (Path.ofString target)
    | _ => pure ()
  return disk

/-- Copies what stands at a path, above it and below it. -/
def copyAround (disk : Disk) (path : Path) : IO Disk := do
  let disk ← copyPath disk (disk.absolutePath path)
  match disk.stat path with
  | .ok .directory => copyBelow disk (disk.locationOf path)
  | _ => return disk

/-- The paths that settings name. -/
def pathsOf (settings : Settings) : List Path :=
  settings.output.toList ++ settings.logFile.toList

/-- The path with its leading tilde replaced, if that is possible. -/
def expanded (disk : Disk) (path : Path) : Path :=
  match disk.expandHome path with
  | .ok path => path
  | .error _ => path

/-- Copies everything that minifying may look at. -/
def copyFor (disk : Disk) (options : MinifyOptions) : IO Disk := do
  let source := expanded disk (Path.ofString options.source)
  let named := options.config.toList ++ options.output.toList
  let mut disk ← copyAround disk source
  for path in (source.parent.child Settings.fileName) :: named.map Path.ofString do
    disk ← copyAround disk (expanded disk path)
  disk ← copyAround disk ((disk.absolutePath source).parent.child Run.outputName)
  match ((Command.settingsFor source options.config).run.run
      { disk, clock := Stamp.ofSeconds 0 }).1 with
  | .ok settings => (pathsOf settings).foldlM copyAround disk
  | .error _ => return disk

/-! ## Writing back -/

/-- Writes back what is new at a place. -/
def writeBack (before : Disk) (place : Location) (entry : Entry) : IO Unit := do
  if before.entries.lookup place != some entry then
    match entry with
    | .directory => IO.FS.createDirAll (placeText place)
    | .file content => IO.FS.writeBinFile (placeText place) (ByteArray.mk content.toArray)
    | .link _ => return ()

/-! ## The call -/

/-- The time at which an empty file is made. -/
def now : IO Stamp := do
  let (_, file) ← IO.FS.createTempFile
  let made := (← file.metadata).modified.sec
  IO.FS.removeFile file
  return Stamp.ofSeconds made.toNat

/-- A disk that holds nothing but the working directory. -/
def emptyDisk : IO Disk := do
  let working ← realPlace "."
  let home := (← IO.getEnv "HOME").getD "/"
  let disk : Disk := { entries := [], workingDirectory := working, home := Path.ofString home }
  copyPath disk ⟨.root, working⟩

/-- The disk for a call. -/
def diskFor (arguments : List String) : IO Disk := do
  let disk ← emptyDisk
  match Invocation.ofArguments arguments with
  | .ok (.minify options) => copyFor disk options
  | _ => return disk

/-- Tells how a call has ended, and gives its code. -/
def report (answer : Except Failure Ending) (log : String) : IO UInt32 := do
  IO.eprint log
  match answer with
  | .ok .finished => return 0
  | .ok (.refused code message) =>
    IO.eprint message
    return UInt32.ofNat code
  | .ok (.serving address) =>
    IO.eprint (Invocation.program ++ ": cannot listen on " ++ address.text ++ "\n")
    return 1
  | .error failure =>
    IO.eprint (Invocation.program ++ ": " ++ failure.message?.getD "failed" ++ "\n")
    return 1

end Program

end Minifier

/-- Runs the program with its arguments. -/
def main (arguments : List String) : IO UInt32 := do
  let disk ← Minifier.Program.diskFor arguments
  let clock ← Minifier.Program.now
  let (answer, after) := (Minifier.Command.run arguments).run.run { disk, clock }
  for (place, entry) in after.disk.entries do
    Minifier.Program.writeBack disk place entry
  IO.print after.printed
  Minifier.Program.report answer after.log.shown
