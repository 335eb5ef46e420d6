import CrateGate.Crate.Package
import CrateGate.Fault

/-!
# The check of the pins

Every pin of every package has to name a package of the list, at the version it has there, and a
package that is to be published may not pin one that is not. If a name occurs twice in the list,
the last package of that name is the one that is pinned; both are checked.
-/

namespace CrateGate.Graph

open Discovery

/-- The package that a name stands for: the last one that has it. -/
def find? (packages : List Package) (name : String) : Option Package :=
  packages.reverse.find? fun p => p.name = name

/-- The package that a pin is on. -/
def target? (packages : List Package) (pin : Pin) : Option Package :=
  pin.label.crate?.bind (find? packages)

/-- What is wrong with a pin of a package, if something is: of several things the first. -/
def flaw? (packages : List Package) (p : Package) (pin : Pin) : Option Problem :=
  match target? packages pin with
  | none => some (.unresolved p.name pin.label p.manifest)
  | some target =>
    if target.version ≠ pin.version then
      some (.pinOutdated p.name pin.label pin.version target.version p.manifest)
    else if p.published && !target.published then
      some (.pinUnpublished p.name pin.label p.manifest)
    else none

/-- The pins of all packages, each with its package, in the order of the lists. -/
def edges (packages : List Package) : List (Package × Pin) :=
  packages.flatMap fun p => p.pins.map fun pin => (p, pin)

/-- The first problem with a pin, if there is one. -/
def firstFlaw? (packages : List Package) : Option Problem :=
  (edges packages).findSome? fun (p, pin) => flaw? packages p pin

/-- Whether all pins are in order. -/
def check (packages : List Package) : Except Fault Unit :=
  match firstFlaw? packages with
  | none => .ok ()
  | some problem => .error (.discovery problem)

end CrateGate.Graph
