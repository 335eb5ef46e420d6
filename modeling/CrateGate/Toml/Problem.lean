/-!
# Problems of TOML documents

A text can fail to be a TOML document, or it can be one up to a decimal integer of more digits
than are computed, or up to a value that lies too deep in others. Readers of a part of a document
return the part and the text after it.
-/

namespace CrateGate.Toml

/-- Why a text has no value as a TOML document. -/
inductive Problem
  | malformed
  | oversized
  | tooDeep
deriving DecidableEq, Repr

end CrateGate.Toml
