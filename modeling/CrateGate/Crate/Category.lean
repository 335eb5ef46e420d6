/-!
# Categories of crates

A crate belongs to a group by the start of its name. The crates of a group share the version of
the group's anchor.
-/

namespace CrateGate

/-- What a crate is released as. -/
inductive Category
  | runtime
  | distribution
  | other
deriving DecidableEq, Repr

namespace Category

/-- The crate whose version every runtime crate has. -/
def runtimeAnchor : String := "aws-smithy-types"

/-- The crate whose version every distribution crate has. -/
def distributionAnchor : String := "aws-config"

/-- The starts of names that decide about a category, the longest first: of two that fit a name,
the longer one counts. -/
def table : List (String × Category) :=
  [("aws-smithy-", runtime), ("aws-sdk-", distribution), ("aws-", distribution)]

/-- The category of the crate of that name. -/
def ofName (name : String) : Category :=
  match table.find? fun entry => entry.1.toList.isPrefixOf name.toList with
  | some (_, category) => category
  | none => other

/-- The category as it is written in reports. -/
def render : Category → String
  | runtime => "runtime_shared_component"
  | distribution => "distribution_surface"
  | other => "other"

end Category

end CrateGate
