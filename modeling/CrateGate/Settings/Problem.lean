import CrateGate.Path

/-!
# Problems of settings

What can be wrong with a settings file.
-/

namespace CrateGate.Settings

/-- What is wrong with the document in a settings file. -/
inductive Flaw
  | notMapping
  | unknownKeys (keys : List Text)
  | manifestName
  | excludedDirs
  | logLevel
deriving DecidableEq, Repr

/-- The wording of a flaw. -/
def Flaw.message : Flaw → Text
  | notMapping => "top-level document must be a mapping"
  | unknownKeys keys => "unknown key(s): " ++ Text.intercalate ", " keys
  | manifestName => "manifest_name must be a non-empty string"
  | excludedDirs => "exclude_dirs must be a list of strings"
  | logLevel => "log_level must be one of CRITICAL, DEBUG, ERROR, INFO, WARNING"

/-- What is wrong with a settings file. A file that is no YAML document has the wording of the
reader that found it so. -/
inductive Problem
  | notFound (file : Path)
  | malformed (file : Path) (reason : Text)
  | flawed (file : Path) (flaw : Flaw)
deriving DecidableEq, Repr

/-- The wording of a problem. -/
def Problem.message : Problem → Text
  | notFound file => "Config file not found: " ++ file.render
  | malformed file reason => "Invalid YAML in " ++ file.render ++ ": " ++ reason
  | flawed file flaw => file.render ++ ": " ++ flaw.message

end CrateGate.Settings
