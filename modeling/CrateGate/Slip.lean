import CrateGate.Path

/-!
# Slips

What can go wrong without being a finding of the gate: values, files and arguments that it does not
expect and does not explain.
-/

namespace CrateGate

/-- Something unexpected. Two look-ups say where they found nothing. -/
inductive Slip
  | badValue
  | badType
  | badIndex
  | badKey
  | badAttribute
  | undecodable
  | unsupported
  | tooLarge
  | tooDeep
  | nameTooLong
  | isDirectory
  | notDirectory
  | alreadyThere
  | missing
  | noDirectoryAt (location : Path)
  | noFileAt (path : Path)
  | bothDiscovererAndFiles
deriving DecidableEq, Repr

/-- The wording of a slip, for those that have one. -/
def Slip.message? : Slip → Option String
  | noDirectoryAt location => some ("Not a directory: " ++ location.render)
  | noFileAt path => some ("No such file: " ++ path.render)
  | bothDiscovererAndFiles =>
    some "validate_post_fix() takes either discoverer or fs, not both"
  | _ => none

end CrateGate
