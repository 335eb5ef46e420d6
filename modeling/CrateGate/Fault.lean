import CrateGate.Discovery.Problem
import CrateGate.Settings.Problem
import CrateGate.Slip

/-!
# Faults

Everything that can end an operation early. Most faults are findings of the gate, with a kind, a
wording and an exit code of their own; a slip has no kind, and seldom a wording.
-/

namespace CrateGate

/-- Why an operation ended early. -/
inductive Fault
  | version (problem : Version.Problem)
  | anchorMissing (anchor : String)
  | versionMismatch (name : String) (expected actual : Version)
  | discovery (problem : Discovery.Problem)
  | settings (problem : Settings.Problem)
  | slip (slip : Slip)
deriving DecidableEq, Repr

namespace Fault

/-- The fault that a version problem is; a number that is too long is not explained. -/
def ofVersion : Version.Problem → Fault
  | .oversized => slip .badValue
  | problem => version problem

/-- The kind of a finding; a slip is none. -/
def kind? : Fault → Option String
  | version _ => some "VersionParseError"
  | anchorMissing _ => some "MissingAnchorError"
  | versionMismatch .. => some "VersionMismatchError"
  | discovery _ => some "DiscoveryError"
  | settings _ => some "ConfigError"
  | slip _ => none

/-- The wording of a fault, as far as it has one. -/
def message? (reasons : Discovery.Reasons) : Fault → Option Text
  | version problem => some problem.message
  | anchorMissing anchor => some ("'" ++ anchor ++ "' crate missing")
  | versionMismatch name expected actual =>
    some ("Crate named '" ++ name ++ "' should be at version '" ++ expected.render ++
      "' but is at '" ++ actual.render ++ "'")
  | discovery problem => some (problem.message reasons)
  | settings problem => some problem.message
  | slip s => s.message?.map fun message => message

end Fault

end CrateGate
