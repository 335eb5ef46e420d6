import CrateGate.Discovery.Read
import CrateGate.Files.Pattern

/-!
# Trees on disk

A tree of directories and files, and what looking for files in it means. Here `..` leads to the
directory above, a name to look for is a pattern, and texts are decoded from bytes.

A pattern may have several parts with slashes between them. A part `**` stands for any number of
directories, any other part for one name; the parts are looked for below every directory of the
tree. Only files are found. Names on a disk are texts of characters, so a part with half of a
surrogate pair in it is the name of nothing. However deep the directories lie in one another, all of
them are searched: no bound is set on that.
-/

namespace CrateGate.Files

/-- A file or a directory. -/
inductive Entry
  | file (bytes : ByteArray)
  | folder (children : List (String × Entry))

namespace Entry

/-- The entry at the end of a way down. -/
def at? : List String → Entry → Option Entry
  | [], e => some e
  | name :: names, folder children => (children.lookup name).bind (at? names)
  | _ :: _, file _ => none

/-- Whether an entry is a directory. -/
def isFolder : Entry → Bool
  | folder _ => true
  | file _ => false

/-- The entries of a directory. -/
def children : Entry → List (String × Entry)
  | folder children => children
  | file _ => []

/-- Children with one of them replaced, or one more. -/
def setChild (name : String) (e : Entry) : List (String × Entry) → List (String × Entry)
  | [] => [(name, e)]
  | (n, old) :: rest => if n = name then (name, e) :: rest else (n, old) :: setChild name e rest

/-- The entry with another one put at the end of a way down. Directories on the way are made where
there are none. -/
def put (new : Entry) : List String → Entry → Entry
  | [], _ => new
  | name :: names, e =>
    let below := (e.children.lookup name).getD (folder [])
    folder (setChild name (put new names below) e.children)

mutual

/-- The directories of a tree, the tree itself included, each as the path that leads to it from the
path of the tree. -/
def folders (path : Path) : Entry → List Path
  | file _ => []
  | folder children => path :: foldersIn path children

/-- The directories below a path. -/
def foldersIn (path : Path) : List (String × Entry) → List Path
  | [] => []
  | (name, e) :: rest => folders (path.child name) e ++ foldersIn path rest

end

end Entry

/-- A disk, and the directory in which the reader stands. -/
structure Disk where
  /-- All there is. -/
  root : Entry
  /-- The way from the root to the reader. -/
  standing : List String

namespace Disk

/-- The most bytes that a name may have. -/
def nameLimit : Nat := 255

/-- The number of bytes from which on a path is too long as a whole. -/
def pathLimit : Nat := 4096

/-- Whether a path can be looked up at all. A name cannot hold the character zero. -/
def checkPath (p : Path) : Except Slip Unit :=
  if p.parts.any fun part => part.toList.contains '\x00' then .error .badValue
  else if pathLimit ≤ p.render.utf8ByteSize then .error .nameTooLong
  else .ok ()

/-- One step of a path, from the end of a way down. -/
def step (d : Disk) (way : List String) (part : String) : Except Slip (List String) :=
  match d.root.at? way with
  | some (.folder children) =>
    if part = ".." then .ok way.dropLast
    else if (children.lookup part).isSome then .ok (way ++ [part])
    else if nameLimit < part.utf8ByteSize then .error .nameTooLong
    else .error .missing
  | some (.file _) => .error .notDirectory
  | none => .error .missing

/-- The way down that a path means. -/
def resolve (d : Disk) (p : Path) : Except Slip (List String) := do
  checkPath p
  if p.isAbsolute then (p.parts.drop 1).foldlM d.step []
  else p.parts.foldlM d.step d.standing

/-- The entry at a path, if there is one. For a name that is too long it cannot be said whether
there is. -/
def look (d : Disk) (p : Path) : Except Slip (Option Entry) :=
  match d.resolve p with
  | .ok way => .ok (d.root.at? way)
  | .error .nameTooLong => .error .nameTooLong
  | .error _ => .ok none

/-- Whether there is a directory at a path. -/
def isFolder (d : Disk) (p : Path) : Except Slip Bool :=
  (d.look p).map fun e => e.any Entry.isFolder

/-- Whether there is a file at a path. -/
def isFile (d : Disk) (p : Path) : Except Slip Bool :=
  (d.look p).map fun e => e.any fun e => !e.isFolder

/-- The bytes of a file. -/
def readBytes (d : Disk) (p : Path) : Except Slip ByteArray := do
  let way ← d.resolve p
  match d.root.at? way with
  | some (.file bytes) => .ok bytes
  | some (.folder _) => .error .isDirectory
  | none => .error .missing

/-- The text of a file: its bytes decoded, with every line ending in `\n`. -/
def read (d : Disk) (p : Path) : Except Slip String := do
  let bytes ← d.readBytes p
  match String.fromUTF8? bytes with
  | some s => .ok (String.ofList (Text.universalNewlines s.toList))
  | none => .error .undecodable

/-! ## Looking for files -/

/-- One part of a pattern. -/
inductive Part
  | anyDepth
  | name (t : Text)
  | wild (pieces : List Piece)
deriving DecidableEq, Repr

/-- Whether two stars stand next to each other in a text. -/
def hasTwoStars : List Letter → Bool
  | .char '*' :: .char '*' :: _ => true
  | _ :: rest => hasTwoStars rest
  | [] => false

/-- One part of a pattern; two stars have to stand alone. -/
def Part.ofText (t : Text) : Except Slip Part :=
  if t = "**" then .ok .anyDepth
  else if hasTwoStars t.letters then .error .badValue
  else if isWild t then .ok (.wild (pieces t))
  else .ok (.name t)

/-- A pattern. -/
structure Pattern where
  /-- The parts, from the top down. -/
  parts : List Part
  /-- Whether it asks for directories, by a slash at its end. -/
  folderOnly : Bool
deriving DecidableEq, Repr

/-- The most parts that a pattern may have. Every part takes its share of the stack, so the number
depends on how much of the stack is in use where the search begins; this is the number for a search
that a command line asks for. -/
def partLimit : Nat := 197

/-- The parts of a text between slashes, as those of a path: empty ones and dots vanish. -/
def textParts (t : Text) : List Text :=
  ((Text.splitOn (.char '/') t.letters).filter fun part => part ≠ [] ∧ part ≠ [.char '.']).map
    Text.mk

/-- The pattern that a text writes; it cannot be absolute. -/
def Pattern.ofText (t : Text) : Except Slip Pattern := do
  if t.letters.head? = some (.char '/') then .error .unsupported
  else
    let parts ← ((textParts t).take (partLimit + 1)).mapM Part.ofText
    if partLimit < parts.length then .error .tooDeep
    else .ok ⟨parts, t.letters.getLast? = some (.char '/')⟩

/-- The paths to which one part of a pattern leads from a path; to directories alone, if asked. -/
def selectPart (d : Disk) (part : Part) (folderOnly : Bool) (p : Path) :
    Except Slip (List Path) :=
  match part with
  | .anyDepth => (d.look p).map fun e => ((e.map (Entry.folders p)).getD [])
  | .name t =>
    match t.string? with
    | none => .ok []
    | some s => do
      let next := p.child s
      let there ← if folderOnly then d.isFolder next else (d.look next).map Option.isSome
      .ok (if there then [next] else [])
  | .wild pieces =>
    (d.look p).map fun e =>
      let fitting := ((e.map Entry.children).getD []).filter fun (name, e) =>
        fits pieces name && (!folderOnly || e.isFolder)
      fitting.map fun (name, _) => p.child name

/-- Paths in order, each of them once. -/
def inOrder (paths : List Path) : List Path :=
  (SortedMap.ofList (paths.map fun p => (p, ()))).keys

/-- The paths to which the parts of a pattern lead from some paths. Before another part comes there
has to be a directory. -/
def select (d : Disk) (folderOnly : Bool) : List Part → List Path → Except Slip (List Path)
  | [], paths => .ok paths
  | part :: more, paths => do
    let found ← paths.mapM (d.selectPart part (folderOnly || !more.isEmpty))
    select d folderOnly more (inOrder found.flatten)

/-- Whether a path to which a pattern led is a file outside the excluded directories. -/
def isSelected (d : Disk) (root : Path) (excluded : List Text) (p : Path) :
    Except Slip Bool :=
  (d.isFile p).map fun there =>
    there && !Path.passesThrough excluded (p.parts.drop root.parts.length)

/-- The files that a pattern finds anywhere below a root, by path. -/
def find (d : Disk) (root : Path) (name : Text) (excluded : List Text) :
    Except Slip (List Path) := do
  if !(← d.isFolder root) then .error (.noDirectoryAt root)
  else
    let pattern ← Pattern.ofText name
    let found ← d.select pattern.folderOnly (.anyDepth :: pattern.parts) [root]
    found.filterM (d.isSelected root excluded)

/-- The disk as a place where manifests are kept. -/
def source (d : Disk) : Discovery.Source :=
  ⟨d.find, d.read⟩

/-! ## Writing -/

/-- A tree with the directories on a way made where there are none, as far as that is possible, and
the way to the last of them. -/
def makeFolders (root : Entry) (way : List String) :
    List String → Entry × Except Slip (List String)
  | [] => (root, .ok way)
  | part :: parts =>
    if part = ".." then makeFolders root way.dropLast parts
    else
      let next := way ++ [part]
      match root.at? next with
      | some (.file _) => (root, .error (if parts.isEmpty then .alreadyThere else .notDirectory))
      | some (.folder _) => makeFolders root next parts
      | none =>
        if nameLimit < part.utf8ByteSize then (root, .error .nameTooLong)
        else makeFolders ((Entry.folder []).put next root) next parts

/-- The disk with the directories above a path made, and the way to the last of them. -/
def makeAbove (d : Disk) (p : Path) : Disk × Except Slip (List String) :=
  match checkPath ⟨p.parts.dropLast⟩ with
  | .error s => (d, .error s)
  | .ok () =>
    let (root, way) :=
      if p.isAbsolute then makeFolders d.root [] (p.parts.drop 1).dropLast
      else makeFolders d.root d.standing p.parts.dropLast
    (⟨root, d.standing⟩, way)

/-- The disk with an entry put at the end of a way, where no directory stands. -/
def putAt (d : Disk) (above : List String) (name : String) (e : Entry) : Except Slip Disk :=
  let way := if name = ".." then above.dropLast else above ++ [name]
  match d.root.at? way, e with
  | some (.folder _), .file _ => .error .isDirectory
  | some (.folder _), .folder _ => .ok d
  | _, e =>
    if nameLimit < name.utf8ByteSize then .error .nameTooLong
    else .ok ⟨e.put way d.root, d.standing⟩

/-- The disk with an entry put at a path, and the directories above it. Directories that are made
stay if the entry cannot be put there. Nothing takes the place of a directory. -/
def put (d : Disk) (p : Path) (e : Entry) : Disk × Except Slip Unit :=
  match d.makeAbove p with
  | (d, .error s) => (d, .error s)
  | (d, .ok above) =>
    let placed : Except Slip Disk := do
      checkPath p
      if p.name.isEmpty then .error .isDirectory else d.putAt above p.name e
    match placed with
    | .ok d => (d, .ok ())
    | .error s => (d, .error s)

/-- The disk with a text written to a file. -/
def write (d : Disk) (p : Path) (text : String) : Disk × Except Slip Unit :=
  d.put p (.file text.toUTF8)

end Disk

end CrateGate.Files
