import CrateGate.Discovery.Read

/-!
# Trees in memory

A tree of files that is held in memory: a map from paths to texts. Directories exist only as far
as files lie below them. Since the map is sorted by path, what is found is too.
-/

namespace CrateGate.Files

/-- A tree of files in memory. -/
abbrev Memory := SortedMap Path String

namespace Memory

/-- The tree with a file written, in place of one at the same path. -/
def write (m : Memory) (path : Path) (text : String) : Memory :=
  m.insert path text

/-- The tree of some files; of two at one path the later counts. -/
def ofFiles (files : List (Path × String)) : Memory :=
  SortedMap.ofList files

/-- The text of a file. -/
def read (m : Memory) (path : Path) : Except Slip String :=
  match m.get? path with
  | some text => .ok text
  | none => .error (.noFileAt path)

/-- Whether a path lies below a root and is the root's own. -/
def isUnder (root path : Path) : Bool :=
  (root.below? path).isSome

/-- Whether a file is looked for: it lies below the root, has the name, and no directory between
the two is excluded. -/
def isSelected (root : Path) (name : Text) (excluded : List Text) (path : Path) : Bool :=
  (path.name : Text) = name &&
    (root.below? path).any fun parts => !Path.passesThrough excluded parts

/-- The files of a name below a root. The root has to be a directory: no file, and with a file
below it. -/
def find (m : Memory) (root : Path) (name : Text) (excluded : List Text) :
    Except Slip (List Path) :=
  if (m.get? root).isSome || !m.keys.any (isUnder root) then .error (.noDirectoryAt root)
  else .ok (m.keys.filter (isSelected root name excluded))

/-- The tree as a place where manifests are kept. -/
def source (m : Memory) : Discovery.Source :=
  ⟨m.find, m.read⟩

end Memory

end CrateGate.Files
