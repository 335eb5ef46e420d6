import CrateGate.Crate.Category
import CrateGate.Crate.Label
import CrateGate.Path
import CrateGate.Version.Basic

/-!
# Packages

A package is one release of a crate as its manifest declares it: a name, a version, the versions
at which it pins the crates beside it, and whether it is to be published.
-/

namespace CrateGate

/-- A dependency on a crate of the same tree, at one exact version. -/
structure Pin where
  /-- What the dependency names. -/
  label : Label
  /-- The version it asks for. -/
  version : Version
deriving DecidableEq, Repr

/-- One release of a crate. -/
structure Package where
  /-- The name of the crate. -/
  name : String
  /-- The version of the release. -/
  version : Version
  /-- Where the manifest is. -/
  manifest : Path
  /-- The dependencies on crates of the same tree. -/
  pins : List Pin
  /-- Whether the release is to be published. -/
  published : Bool
deriving DecidableEq, Repr

namespace Package

/-- The category of the crate. -/
def category (p : Package) : Category :=
  Category.ofName p.name

/-- The release in a report: `name-version`. -/
def release (p : Package) : String :=
  p.name ++ "-" ++ p.version.render

/-- The crates that a package pins. -/
def pinned (p : Package) : List String :=
  p.pins.filterMap (·.label.crate?)

end Package

end CrateGate
