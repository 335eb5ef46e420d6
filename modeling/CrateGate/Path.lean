import CrateGate.Text.Blank

/-!
# Paths

A path is the list of its parts. Empty parts and parts `.` vanish when a path is read, so repeated
and trailing slashes do not matter; `..` stays, because what it means depends on the disk. One
leading slash is a first part of its own, and so are exactly two; three or more count as one.

Paths are ordered part by part: everything below `a` comes before `a-b`.
-/

namespace CrateGate

/-- A path, as the list of its parts. -/
@[ext] structure Path where
  /-- The parts from left to right; `/` or `//` comes first in an absolute path. -/
  parts : List String
deriving DecidableEq, Repr

namespace Path

/-- The path of no parts: where the reader stands. -/
def here : Path :=
  ⟨[]⟩

instance : Inhabited Path :=
  ⟨here⟩

/-- The first part that leading slashes make. -/
def rootParts (slashes : Nat) : List String :=
  if slashes = 0 then [] else if slashes = 2 then ["//"] else ["/"]

/-- The path that a text writes. -/
def ofChars (cs : List Char) : Path :=
  let kept := (Text.splitOn '/' cs).filter fun part => part ≠ [] ∧ part ≠ ['.']
  ⟨rootParts (cs.takeWhile (· = '/')).length ++ kept.map String.ofList⟩

/-- The path that a text writes. -/
def ofString (s : String) : Path :=
  ofChars s.toList

/-- The parts that stand for leading slashes. -/
def isRoot (part : String) : Bool :=
  part = "/" || part = "//"

/-- Absolute paths start at a root. -/
def isAbsolute (p : Path) : Bool :=
  p.parts.head?.any isRoot

/-- The text of a path; the path of no parts is a dot. -/
def render (p : Path) : String :=
  match p.parts with
  | [] => "."
  | first :: rest =>
    if isRoot first then first ++ "/".intercalate rest else "/".intercalate p.parts

instance : ToString Path :=
  ⟨render⟩

/-- The last part, other than a root; empty if there is none. -/
def name (p : Path) : String :=
  match p.parts.getLast? with
  | none => ""
  | some last => if p.parts.length = 1 && isRoot last then "" else last

/-- The path one part further down. -/
def child (p : Path) (part : String) : Path :=
  ⟨p.parts ++ [part]⟩

/-- What is left of `p` after the parts of `root`, if it starts with them. No absolute path starts
at the path of no parts. -/
def below? (root p : Path) : Option (List String) :=
  if root.parts.isEmpty && p.isAbsolute then none
  else if root.parts.isPrefixOf p.parts then some (p.parts.drop root.parts.length)
  else none

/-- Whether a part other than the last is one of `names`. -/
def passesThrough (names : List Text) (parts : List String) : Bool :=
  parts.dropLast.any fun part => names.contains (part : Text)

/-! ## Order -/

instance : LT Path :=
  ⟨fun p q => p.parts < q.parts⟩

instance : LE Path :=
  ⟨fun p q => ¬q.parts < p.parts⟩

instance : DecidableLT Path := fun p q =>
  inferInstanceAs (Decidable (p.parts < q.parts))

instance : Std.IsLinearOrder Path where
  le_refl p := List.lt_irrefl p.parts
  le_trans _ _ _ h h' := List.le_trans h h'
  le_antisymm _ _ h h' := Path.ext (List.le_antisymm h h')
  le_total p q := List.le_total p.parts q.parts

instance : Std.LawfulOrderLT Path where
  lt_iff p q := by
    refine ⟨fun h => ⟨fun h' => ?_, fun h' => h' h⟩, fun h => Classical.not_not.1 h.2⟩
    exact List.lt_irrefl p.parts (List.lt_trans h h')

end Path

end CrateGate
