import CrateGate.Slip

/-!
# Problems of YAML documents

A text can fail to be a YAML document, or it can be one that holds a value which does not exist: a
day that is not in the calendar, say, or a tag for integers before a text without digits. A text
that ends in the middle of a token is no document either, but more text might have made it one.
-/

namespace CrateGate.Yaml

/-- Why a text has no value as a YAML document. -/
inductive Problem
  | malformed
  | unfinished
  | unexpected (slip : Slip)
deriving DecidableEq, Repr

/-- A value that does not exist. -/
def unexpected {α : Type} (slip : Slip) : Except Problem α :=
  .error (.unexpected slip)

end CrateGate.Yaml
