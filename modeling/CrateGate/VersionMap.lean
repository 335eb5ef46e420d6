import CrateGate.Crate.Category
import CrateGate.Fault
import CrateGate.SortedMap

/-!
# Version maps

Which version each crate of a tree has. A map is made from declarations, and the declarations of a
crate have to agree.
-/

namespace CrateGate

/-- The versions of crates, by name. -/
abbrev VersionMap := SortedMap String Version

/-- A version as it is handed over: as such, or as a value that is still to be read. -/
inductive Declared
  | version (v : Version)
  | datum (d : Datum)
deriving Repr

/-- The version that was handed over. -/
def Declared.read : Declared → Except Fault Version
  | version v => .ok v
  | datum d => (Version.ofDatum d).mapError Fault.ofVersion

namespace VersionMap

/-- The map with one more declaration. -/
def declare (versions : VersionMap) (name : String) (version : Version) :
    Except Fault VersionMap :=
  match versions.get? name with
  | none => .ok (versions.insert name version)
  | some earlier =>
    if earlier = version then .ok versions
    else .error (.discovery (.versionsDiffer name earlier version))

/-- The map with more declarations, in their order. -/
def declareAll : VersionMap → List (String × Declared) → Except Fault VersionMap
  | versions, [] => .ok versions
  | versions, (name, declared) :: rest => do
    let version ← declared.read
    let versions ← declare versions name version
    declareAll versions rest

/-- The map that declarations make. -/
def build (pairs : List (String × Declared)) : Except Fault VersionMap :=
  declareAll SortedMap.empty pairs

/-- The version of the runtime group, if its anchor is there. -/
def runtime? (versions : VersionMap) : Option Version :=
  versions.get? Category.runtimeAnchor

/-- The version of the distribution group, if its anchor is there. -/
def distribution? (versions : VersionMap) : Option Version :=
  versions.get? Category.distributionAnchor

end VersionMap

end CrateGate
