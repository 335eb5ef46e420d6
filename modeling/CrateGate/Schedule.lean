import CrateGate.Crate.Package

/-!
# Schedules

What a discovery ends in: the packages to be published, in layers of which each needs only earlier
ones, and the packages that are not to be published.
-/

namespace CrateGate

/-- The packages of a tree as they can be published. -/
structure Schedule where
  /-- The packages to be published: each pins packages of earlier layers only. -/
  layers : List (List Package) := []
  /-- The packages that are not to be published. -/
  unpublished : List Package := []
deriving DecidableEq, Repr

namespace Schedule

/-- How many packages are to be published. -/
def size (s : Schedule) : Nat :=
  s.layers.flatten.length

/-- All packages by name; packages of one name keep the order they have in the schedule. -/
def packages (s : Schedule) : List Package :=
  (s.layers.flatten ++ s.unpublished).mergeSort fun p q => p.name ≤ q.name

/-- The layers in a report. -/
def releases (s : Schedule) : List (List String) :=
  s.layers.map fun layer => layer.map Package.release

/-- The packages that are not to be published, in a report. -/
def unpublishedReleases (s : Schedule) : List String :=
  s.unpublished.map Package.release

end Schedule

end CrateGate
