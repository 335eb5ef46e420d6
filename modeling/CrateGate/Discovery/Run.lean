import CrateGate.Alignment
import CrateGate.Discovery.Read
import CrateGate.Graph.Layers
import CrateGate.Schedule

/-!
# Discovery

What is done with the packages of a tree: their versions are collected, or their pins are checked
and a schedule is made.
-/

namespace CrateGate.Discovery

/-- The schedule of packages that have been read: the pins of all of them are checked, and those to
be published are put into layers. -/
def schedule (packages : List Package) : Except Fault Schedule := do
  Graph.check packages
  let layers ← Graph.layers (packages.filter (·.published))
  .ok ⟨layers, packages.filter fun p => !p.published⟩

/-- The note at the end of a discovery. -/
def summary (s : Schedule) : String :=
  "Discovered " ++ toString s.size ++ " publishable crate(s) in " ++ toString s.layers.length ++
    " batch(es), " ++ toString s.unpublished.length ++ " unpublished"

/-- The schedule of the packages below a location; there has to be a package. -/
def discover (source : Source) (location : Path) (settings : Settings) : Report Schedule := do
  let packages ← readPackages source location settings
  if packages.isEmpty then
    Report.fail (.discovery (.noPackages settings.manifestName location))
  else
    let s ← Report.ofExcept (schedule packages)
    Report.note .info .discovery (summary s)
    pure s

/-- The version that a package declares. -/
def declaration (p : Package) : String × Declared :=
  (p.name, .version p.version)

/-- The versions of the packages below a location. -/
def loadVersions (source : Source) (location : Path) (settings : Settings) :
    Report VersionMap := do
  let packages ← readPackages source location settings
  Report.ofExcept (VersionMap.build (packages.map declaration))

/-- The check before manifests are changed: the groups are aligned. -/
def checkBefore (source : Source) (location : Path) (settings : Settings) :
    Report VersionMap := do
  let versions ← loadVersions source location settings
  Alignment.report versions
  pure versions

/-- The note at the start of a check after manifests were changed. -/
def openingNote : Report Unit :=
  Report.note .info .validation "Post-validating manifests..."

/-- The check after manifests were changed, by any discoverer. -/
def checkAfterWith (discoverer : Path → Report Schedule) (location : Path) : Report Schedule := do
  openingNote
  discoverer location

/-- The check after manifests were changed: a schedule can be made. -/
def checkAfter (source : Source) (location : Path) (settings : Settings) : Report Schedule :=
  checkAfterWith (fun l => discover source l settings) location

/-- Either a discoverer or a source can be given, not both. Without a discoverer the source is
read, with the settings that hold without a settings file. -/
def checkAfterChoice (discoverer : Option (Path → Report Schedule)) (source : Option Source)
    (standard : Source) (location : Path) : Report Schedule :=
  match discoverer, source with
  | some _, some _ => Report.fail (.slip .bothDiscovererAndFiles)
  | some d, none => checkAfterWith d location
  | none, source => checkAfter (source.getD standard) location {}

end CrateGate.Discovery
