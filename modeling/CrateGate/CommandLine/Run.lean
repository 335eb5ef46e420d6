import CrateGate.CommandLine.Host
import CrateGate.CommandLine.Invocation
import CrateGate.Discovery.Run
import CrateGate.Json
import CrateGate.Settings.Load

/-!
# Running commands

What a command line does on a host with a disk: what it prints, the lines it logs, and how it exits.
A check that passes exits with 0 and one that fails with 1, each with a document that says so; a
command line or a settings file that cannot be used exits with 2. A slip is not explained and leaves
no document.

Notes are logged from the severity on that the settings ask for, and all of them if the command
line asks for that. They change nothing else.
-/

namespace CrateGate.CommandLine

open Discovery (Source)

/-- How a run ends. -/
inductive Exit
  | code (n : Nat)
  | slip (s : Slip)
deriving DecidableEq, Repr

/-- What a run leaves behind. -/
structure Outcome where
  /-- How it ends. -/
  exit : Exit
  /-- What it prints. -/
  stdout : String
  /-- The lines it logs. -/
  stderr : List String
deriving DecidableEq, Repr

/-- Lines as a text, each with a line break at its end. -/
def textOfLines (lines : List String) : String :=
  String.join (lines.map (· ++ "\n"))

/-! ## Documents -/

/-- A list of texts. -/
def texts (items : List String) : Json :=
  .list (items.map fun item : String => .text item)

/-- The members of a schedule. -/
def scheduleMembers (s : Schedule) : List (String × Json) :=
  [("batches", .list (s.releases.map texts)),
    ("unpublished", texts s.unpublishedReleases),
    ("package_count", .number s.size)]

/-- The versions of a map. -/
def versionsDocument (versions : VersionMap) : Json :=
  .object [("status", .text "OK"),
    ("versions", .object (versions.toList.map fun (name, v) => (name, .text v.render)))]

/-- The document of a check before the change that passed. -/
def beforeDocument (versions : VersionMap) : Json :=
  .object [("status", .text "PASS"), ("phase", .text "pre"), ("packages", .number versions.size)]

/-- The document of a check after the change that passed. -/
def afterDocument (s : Schedule) : Json :=
  .object ([("status", .text "PASS"), ("phase", .text "post")] ++ scheduleMembers s)

/-- The document of both checks that passed. -/
def bothDocument (before after : Json) : Json :=
  .object [("status", .text "PASS"), ("pre", before), ("post", after)]

/-- What a finding adds to its kind and its wording. -/
def findingMembers : Fault → List (String × Json)
  | .discovery problem =>
    ("code", .text problem.code) ::
      (if problem.details.isEmpty then [] else [("details", texts problem.details)])
  | _ => []

/-- The document of a finding. -/
def findingDocument (reasons : Discovery.Reasons) (fault : Fault) : Json :=
  .object ([("status", .text "FAIL"), ("kind", .text (fault.kind?.getD "")),
    ("error", .text ((fault.message? reasons).getD ""))] ++ findingMembers fault)

/-! ## Commands -/

/-- A command on a location, with the document of a check that passed. -/
def Command.report (source : Source) (settings : Settings) (location : Path) :
    Command → Report Json
  | .versions => do
    let versions ← Discovery.loadVersions source location settings
    pure (versionsDocument versions)
  | .before => do
    let versions ← Discovery.checkBefore source location settings
    pure (beforeDocument versions)
  | .after => do
    let schedule ← Discovery.checkAfter source location settings
    pure (afterDocument schedule)
  | .both => do
    let versions ← Discovery.checkBefore source location settings
    let schedule ← Discovery.checkAfter source location settings
    pure (bothDocument (beforeDocument versions) (afterDocument schedule))

/-- A command with its opening note. -/
def Command.start (source : Source) (settings : Settings) (location : Path) (command : Command) :
    Report Json := do
  Report.note .debug .gate ("Command " ++ command.name ++ " at " ++ location.render)
  command.report source settings location

/-- The lines of the notes that are shown. -/
def shownNotes (least : Severity) (notes : List Note) : List String :=
  (notes.filter fun n => least.rank ≤ n.severity.rank).map Note.line

/-- What a run leaves behind after a report. -/
def Outcome.ofReport (reasons : Discovery.Reasons) (least : Severity) (r : Report Json) :
    Outcome :=
  let stderr := shownNotes least r.notes
  match r.outcome with
  | .ok document => ⟨.code 0, document.print, stderr⟩
  | .error (.slip s) => ⟨.slip s, "", stderr⟩
  | .error fault => ⟨.code 1, (findingDocument reasons fault).print, stderr⟩

/-- A run of a command. -/
def runCommand (host : Host) (disk : Files.Disk) (command : Command) (config : Option Path)
    (verbose : Bool) (location : Path) : Outcome :=
  match Settings.load host.yaml disk config with
  | .error (.slip s) => ⟨.slip s, "", []⟩
  | .error fault => ⟨.code 2, (findingDocument host.reasons fault).print, []⟩
  | .ok settings =>
    let least := if verbose then .debug else settings.logLevel
    .ofReport host.reasons least (command.start disk.source settings location)

/-- A run of the program. -/
def perform (host : Host) (disk : Files.Disk) : Invocation → Outcome
  | .help of => ⟨.code 0, textOfLines (help of), []⟩
  | .idle => ⟨.code 2, textOfLines (help none), []⟩
  | .misuse of complaint => ⟨.code 2, "", usage of ++ [title of ++ ": error: " ++ complaint]⟩
  | .run command config verbose location => runCommand host disk command config verbose location

/-- A run of the program with its arguments. -/
def performArguments (host : Host) (disk : Files.Disk) (args : List String) : Outcome :=
  perform host disk (.ofArguments host.letters args)

end CrateGate.CommandLine
