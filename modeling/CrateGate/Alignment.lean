import CrateGate.Report
import CrateGate.VersionMap

/-!
# Alignment of groups

The check that runs before manifests are changed: every crate of a group has the version of the
group's anchor. The anchor of the runtime group has to be there in any case, that of the
distribution group if the group has a crate. Crates are looked at in the order of their names, and
the first that is out of line is reported.
-/

namespace CrateGate.Alignment

/-- Whether a crate has the version it should have. -/
def confirm (name : String) (expected actual : Version) : Except Fault Unit :=
  if expected = actual then .ok () else .error (.versionMismatch name expected actual)

/-- Whether one crate is in line with the anchors. -/
def checkOne (runtime : Version) (distribution : Option Version) (name : String)
    (version : Version) : Except Fault Unit :=
  match Category.ofName name with
  | .runtime => confirm name runtime version
  | .distribution =>
    match distribution with
    | none => .error (.anchorMissing Category.distributionAnchor)
    | some expected => confirm name expected version
  | .other => .ok ()

/-- Whether all crates of a list are in line with the anchors. -/
def checkAll (runtime : Version) (distribution : Option Version) :
    List (String × Version) → Except Fault Unit
  | [] => .ok ()
  | (name, version) :: rest => do
    checkOne runtime distribution name version
    checkAll runtime distribution rest

/-- Whether every group of a map shares the version of its anchor. -/
def check (versions : VersionMap) : Except Fault Unit :=
  match versions.runtime? with
  | none => .error (.anchorMissing Category.runtimeAnchor)
  | some runtime => checkAll runtime versions.distribution? versions.toList

/-- The check with its note. -/
def report (versions : VersionMap) : Report Unit := do
  Report.note .info .validation "Pre-validating manifests..."
  Report.ofExcept (check versions)

end CrateGate.Alignment
