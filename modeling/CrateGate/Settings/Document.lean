import CrateGate.Fault
import CrateGate.SortedMap
import CrateGate.Settings.Basic
import CrateGate.Text.Blank
import CrateGate.Text.Upper
import CrateGate.Yaml.Value

/-!
# Settings documents

The settings that a document asks for. It is empty or a mapping with keys among the three that are
known; what it does not mention keeps its standard value, and a key without a value is a mistake,
not a mention. Of several mistakes the first in this order is reported: the document is no mapping,
it has unknown keys, the name of the manifests, the excluded directories, the severity.
-/

namespace CrateGate.Settings

open Yaml (Value)

/-- The keys that a document may have. -/
def knownKeys : List Text :=
  ["manifest_name", "exclude_dirs", "log_level"]

/-- The text that a value is, if it is one. -/
def text? : Value → Option Text
  | .plain (.text t) => some t
  | _ => none

/-- The value of a key; of two the later counts. -/
def field? (name : String) (pairs : List (Value × Value)) : Option Value :=
  (pairs.reverse.find? fun (key, _) => text? key = some (name : Text)).map (·.2)

/-- Whether a key is known. -/
def isKnown (key : Value) : Bool :=
  (text? key).any knownKeys.contains

/-- Whether the document has known keys only. The unknown ones are listed by name; one that is no
text cannot be listed. -/
def checkKeys (pairs : List (Value × Value)) : Except (Flaw ⊕ Slip) Unit :=
  let unknown := (pairs.map (·.1)).filter fun key => !isKnown key
  let names := unknown.filterMap text?
  if unknown.isEmpty then .ok ()
  else if names.length < unknown.length then .error (.inr .badType)
  else .error (.inl (.unknownKeys (SortedMap.ofList (names.map fun name => (name, ()))).keys))

/-- The name of the manifests: a text that is not blank, without the white space around it. -/
def readManifestName : Option Value → Except (Flaw ⊕ Slip) Text
  | none => .ok ({} : Settings).manifestName
  | some v =>
    match text? v with
    | some t =>
      if t.letters.all Text.isBlankLetter then .error (.inl .manifestName) else .ok t.stripped
    | none => .error (.inl .manifestName)

/-- The excluded directories: a list of texts. -/
def readExcludedDirs : Option Value → Except (Flaw ⊕ Slip) (List Text)
  | none => .ok ({} : Settings).excludedDirs
  | some (.list items) =>
    match items.mapM text? with
    | some names => .ok names
    | none => .error (.inl .excludedDirs)
  | some _ => .error (.inl .excludedDirs)

/-- The severity: the name of one, in any case. -/
def readLogLevel : Option Value → Except (Flaw ⊕ Slip) Severity
  | none => .ok ({} : Settings).logLevel
  | some v =>
    match (text? v).bind fun t => Severity.ofName? t.upper with
    | some severity => .ok severity
    | none => .error (.inl .logLevel)

/-- The settings that the pairs of a mapping ask for. -/
def ofPairs (pairs : List (Value × Value)) : Except (Flaw ⊕ Slip) Settings := do
  checkKeys pairs
  let manifestName ← readManifestName (field? "manifest_name" pairs)
  let excludedDirs ← readExcludedDirs (field? "exclude_dirs" pairs)
  let logLevel ← readLogLevel (field? "log_level" pairs)
  .ok { manifestName, excludedDirs, logLevel }

/-- The settings that a document asks for. -/
def ofValue : Value → Except (Flaw ⊕ Slip) Settings
  | .plain .null => .ok {}
  | .mapping pairs => ofPairs pairs
  | _ => .error (.inl .notMapping)

/-- The settings of a file, by what a reader makes of it. -/
def ofReading (file : Path) : Except Yaml.Refusal Value → Except Fault Settings
  | .error (.malformed reason) => .error (.settings (.malformed file reason))
  | .error (.unexpected slip) => .error (.slip slip)
  | .ok v =>
    match ofValue v with
    | .ok settings => .ok settings
    | .error (.inl flaw) => .error (.settings (.flawed file flaw))
    | .error (.inr slip) => .error (.slip slip)

end CrateGate.Settings
