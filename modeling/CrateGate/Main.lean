import CrateGate.CommandLine.Run

/-!
# The program

The command line on a real disk. What the run needs of the disk is copied before it: the settings
file, the tree below the location, and the manifests in it. What then happens is
`CommandLine.perform`.
-/

namespace CrateGate

open CommandLine Files

/-- The entry at a place on disk, with the files below it empty. Links to files are followed, links
to directories are not. -/
partial def outline (place : IO.FS.DirEntry) : IO (Option Entry) := do
  let kind := (← place.path.symlinkMetadata).type
  if kind == .dir then
    let children ← (← place.path.readDir).toList.filterMapM fun child => do
      return (← outline child).map fun e => (child.fileName, e)
    return some (.folder children)
  else if kind == .file || !(← place.path.isDir) then
    return some (.file ByteArray.empty)
  else
    return none

/-- A path as a place on disk. -/
def placeOf (path : Path) : IO IO.FS.DirEntry := do
  return ⟨← IO.currentDir, path.render⟩

/-- The disk with a copy of the file at a path, if there is one. -/
def withFile (disk : Disk) (path : Path) : IO Disk := do
  let place ← placeOf path
  if (← place.path.pathExists) && !(← place.path.isDir) then
    return (disk.put path (.file (← IO.FS.readBinFile place.path))).1
  else
    return disk

/-- The disk with the tree at a path, its files empty, if there is one. -/
def withTree (disk : Disk) (path : Path) : IO Disk := do
  let place ← placeOf path
  if ← place.path.isDir then
    let disk := (disk.put path (.folder [])).1
    match disk.resolve path, ← outline place with
    | .ok way, some tree => return { disk with root := tree.put way disk.root }
    | _, _ => return disk
  else
    return disk

/-- The disk with copies of the manifests that a run reads. -/
def withManifests (disk : Disk) (location : Path) (settings : Settings) : IO Disk := do
  match disk.find location settings.manifestName settings.excludedDirs with
  | .ok paths => paths.foldlM withFile disk
  | .error _ => return disk

/-- A copy of what an invocation needs of the disk. -/
def copyFor (invocation : Invocation) : IO Disk := do
  let standing := Path.ofString (← IO.currentDir).toString
  let empty : Disk := ⟨.folder [], standing.parts.drop 1⟩
  let disk := (empty.put standing (.folder [])).1
  match invocation with
  | .run _ config _ location =>
    let disk ← withTree disk location
    let disk ← match config with
      | some file => withFile disk file
      | none => pure disk
    match Settings.load Host.standard.yaml disk config with
    | .ok settings => withManifests disk location settings
    | .error _ => return disk
  | _ => return disk

end CrateGate

open CrateGate in
/-- Runs the program: prints its document, logs its notes, and exits as the run ends. -/
def main (args : List String) : IO UInt32 := do
  let host := CommandLine.Host.standard
  let invocation := CommandLine.Invocation.ofArguments host.letters args
  let outcome := CommandLine.perform host (← copyFor invocation) invocation
  IO.eprint (CommandLine.textOfLines outcome.stderr)
  IO.print outcome.stdout
  match outcome.exit with
  | .code n => return n.toUInt32
  | .slip s =>
    IO.eprintln (CommandLine.program ++ ": " ++ s.message?.getD "unexpected input")
    return 1
