import CrateGate.Files.Disk
import CrateGate.Settings.Document

/-!
# Loading settings

The settings of a file on a disk, by any reader of YAML documents. Without a file the standard
settings hold; a file that is named has to be there.
-/

namespace CrateGate.Settings

/-- The settings of a file, if one is named. -/
def load (reader : Yaml.Reader) (disk : Files.Disk) : Option Path → Except Fault Settings
  | none => .ok {}
  | some file =>
    match disk.isFile file with
    | .error slip => .error (.slip slip)
    | .ok false => .error (.settings (.notFound file))
    | .ok true =>
      match disk.readBytes file with
      | .error slip => .error (.slip slip)
      | .ok bytes => ofReading file (reader bytes)

end CrateGate.Settings
