import CrateGate.Manifest
import CrateGate.Report
import CrateGate.SortedMap

/-!
# Reading a tree

The packages of a tree: every manifest below a location is read, in the order of their paths, and
the packages are returned in the order of their names. The first manifest that cannot be read, or
that declares a crate once more, ends the reading.
-/

namespace CrateGate.Discovery

/-- A place where manifests are kept: it can look for files of a name below a location, outside
excluded directories, and read a file. -/
structure Source where
  /-- The files below a location, by path. -/
  find : Path → Text → List Text → Except Slip (List Path)
  /-- The text of a file. -/
  read : Path → Except Slip String

/-- The packages read so far, by name. -/
abbrev Shelf := SortedMap String Package

/-- The package of one manifest, if it has one. -/
def readManifest (source : Source) (path : Path) : Except Fault (Option Package) :=
  match source.read path with
  | .ok text => Manifest.parse text path
  | .error .badValue => .error (.slip .badValue)
  | .error slip => .error (.discovery (.unreadable path slip))

/-- The packages with one more. -/
def shelve (shelf : Shelf) (p : Package) : Except Fault Shelf :=
  match shelf.get? p.name with
  | none => .ok (shelf.insert p.name p)
  | some earlier => .error (.discovery (.declaredTwice p.name earlier.manifest p.manifest))

/-- The packages with those of more manifests. -/
def readManifests (source : Source) : Shelf → List Path → Report Shelf
  | shelf, [] => pure shelf
  | shelf, path :: paths => do
    match ← Report.ofExcept (readManifest source path) with
    | none =>
      Report.note .debug .discovery ("Skipping " ++ path.render ++ ": no [package] table")
      readManifests source shelf paths
    | some p =>
      let shelf ← Report.ofExcept (shelve shelf p)
      readManifests source shelf paths

/-- The manifests below a location. -/
def findManifests (source : Source) (location : Path) (settings : Settings) :
    Except Fault (List Path) :=
  match source.find location settings.manifestName settings.excludedDirs with
  | .ok paths => .ok paths
  | .error (.noDirectoryAt _) => .error (.discovery (.missingLocation location))
  | .error slip => .error (.slip slip)

/-- The packages below a location, by name. -/
def readPackages (source : Source) (location : Path) (settings : Settings) :
    Report (List Package) := do
  let paths ← Report.ofExcept (findManifests source location settings)
  let shelf ← readManifests source SortedMap.empty paths
  Report.note .debug .discovery
    ("Read " ++ toString shelf.size ++ " package(s) under " ++ location.render)
  pure shelf.values

end CrateGate.Discovery
