import CrateGate.Text.Letter

/-!
# Settings

What a gate run can be told by a settings file, with the values that hold without one.
-/

namespace CrateGate

/-- How grave a note is. -/
inductive Severity
  | debug
  | info
  | warning
  | error
  | critical
deriving DecidableEq, Repr

namespace Severity

/-- The severities from the least to the gravest. -/
def all : List Severity :=
  [debug, info, warning, error, critical]

/-- The name of a severity, in upper case. -/
def name : Severity → String
  | debug => "DEBUG"
  | info => "INFO"
  | warning => "WARNING"
  | error => "ERROR"
  | critical => "CRITICAL"

/-- The severity of that name. -/
def ofName? (name : Text) : Option Severity :=
  all.find? fun s => (s.name : Text) = name

/-- The place of a severity in their order. -/
def rank : Severity → Nat
  | debug => 0
  | info => 1
  | warning => 2
  | error => 3
  | critical => 4

end Severity

/-- What a run can be told. -/
structure Settings where
  /-- The name of the files that are manifests. -/
  manifestName : Text := "Cargo.toml"
  /-- The directories that are not looked into. -/
  excludedDirs : List Text := ["target", ".git"]
  /-- The least severity of the notes that are shown. -/
  logLevel : Severity := .info
deriving DecidableEq, Repr

instance : Inhabited Settings :=
  ⟨{}⟩

end CrateGate
