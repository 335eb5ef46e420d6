import CrateGate.Proofs.CommandLine.Sequence
import CrateGate.Proofs.Discovery.Manifests
import CrateGate.Proofs.Discovery.Versions

/-!
# What the printed versions of a tree say

The versions of a tree are printed as names with texts. Every version that is read from a manifest
is one that a text writes, so the texts are read as the versions they were made of, and the map that
the pairs make is the one that was loaded (`ofPrinted_printed`). The check before a change looks at
that map alone. What it says of a tree can therefore be told from the printed versions
(`printed_sufficient`).
-/

namespace CrateGate

namespace VersionMap

variable {versions : VersionMap}

/-- The versions of a map as they are printed: names with texts. -/
def printed (versions : VersionMap) : List (String × String) :=
  versions.toList.map fun (name, v) => (name, v.render)

/-- The map that names with texts make. -/
def ofPrinted (pairs : List (String × String)) : Except Fault VersionMap :=
  build (pairs.map fun (name, text) => (name, .datum (.text text)))

/-- The text of a version that can be read is read as that version. -/
lemma read_render {v : Version} (h : v.Canonical) :
    (Declared.datum (.text v.render)).read = .ok v := by
  have hread : (Declared.datum (.text v.render)).read =
      (Version.parse v.render).mapError Fault.ofVersion := rfl
  rw [hread, Version.parse_render h]
  rfl

/-- **What is printed of a map makes that map again**, if its versions are such as texts write. -/
theorem ofPrinted_printed (h : ∀ a v, versions.get? a = some v → v.Canonical) :
    ofPrinted versions.printed = .ok versions := by
  unfold ofPrinted printed
  rw [List.map_map]
  exact build_toList fun a v hget => read_render (h a v hget)

end VersionMap

namespace CommandLine

open Discovery

variable {host : Host} {disk : Files.Disk} {source : Source} {location : Path}
  {settings : Settings} {command : Command} {config : Option Path} {verbose : Bool}
  {reasons : Reasons} {least : Severity} {fault : Fault} {r : Report Json}
  {versions : VersionMap} {pairs : List (String × String)}

/-! ## Runs with settings -/

/-- With settings, what a run leaves behind is what its report does. -/
lemma exists_perform_eq (h : Settings.load host.yaml disk config = .ok settings) (command : Command)
    (verbose : Bool) (location : Path) :
    ∃ least, perform host disk (.run command config verbose location) =
      .ofReport host.reasons least (command.start disk.source settings location) := by
  refine ⟨if verbose then .debug else settings.logLevel, ?_⟩
  have hrun : perform host disk (.run command config verbose location) =
      runCommand host disk command config verbose location := rfl
  rw [hrun, runCommand, h]

/-- A finding is printed, and the run exits with 1. -/
lemma ofReport_of_finding (h : r.outcome = .error fault) (hkind : fault.kind?.isSome) :
    (Outcome.ofReport reasons least r).exit = .code 1 ∧
      (Outcome.ofReport reasons least r).stdout = (findingDocument reasons fault).print := by
  unfold Outcome.ofReport
  rw [h]
  cases fault with
  | slip => cases hkind
  | _ => exact ⟨rfl, rfl⟩

/-! ## Versions as they are printed -/

/-- The document of printed versions. -/
def printedDocument (pairs : List (String × String)) : Json :=
  .object [("status", .text "OK"),
    ("versions", .object (pairs.map fun (name, text) => (name, .text text)))]

/-- The document of the versions of a map is that of their names and texts. -/
lemma versionsDocument_eq (versions : VersionMap) :
    versionsDocument versions = printedDocument versions.printed := by
  unfold versionsDocument printedDocument VersionMap.printed
  rw [List.map_map]
  rfl

/-- The document of a check before the change that passed, for so many crates. -/
def passedDocument (n : Nat) : Json :=
  .object [("status", .text "PASS"), ("phase", .text "pre"), ("packages", .number n)]

/-- The check before a change ends as that of the map which is loaded. -/
lemma outcome_report_before
    (h : (loadVersions source location settings).outcome = .ok versions) :
    (Command.before.report source settings location).outcome =
      (Alignment.report versions).outcome.map fun _ => beforeDocument versions := by
  unfold Command.report checkBefore
  simp only [Report.outcome_bind, Report.outcome_pure, h]
  simp only [Except.bind]
  cases (Alignment.report versions).outcome <;> rfl

/-- Pairs of a name and a text are sufficient for the check before a change of a tree: they make the
map that is loaded, and the check of that map ends as the run does. -/
structure Sufficient (host : Host) (disk : Files.Disk) (config : Option Path) (location : Path)
    (settings : Settings) (pairs : List (String × String)) (versions : VersionMap) : Prop where
  /-- The map is that of the tree. -/
  loaded : (loadVersions disk.source location settings).outcome = .ok versions
  /-- The pairs make it. -/
  made : VersionMap.ofPrinted pairs = .ok versions
  /-- If the map passes, so does the run, which counts the pairs. -/
  passes : (Alignment.report versions).outcome = .ok () → ∀ verbose,
    (perform host disk (.run .before config verbose location)).exit = .code 0 ∧
    (perform host disk (.run .before config verbose location)).stdout =
      (passedDocument pairs.length).print
  /-- If not, the run fails with the same fault and prints it. -/
  fails : ∀ fault, (Alignment.report versions).outcome = .error fault →
    (Command.before.report disk.source settings location).outcome = .error fault ∧ ∀ verbose,
      (perform host disk (.run .before config verbose location)).exit = .code 1 ∧
      (perform host disk (.run .before config verbose location)).stdout =
        (findingDocument host.reasons fault).print

/-- The names and texts that are printed of a map of canonical versions are sufficient, if the map
is that of the tree. -/
lemma sufficient_printed (hsettings : Settings.load host.yaml disk config = .ok settings)
    (hload : (loadVersions disk.source location settings).outcome = .ok versions)
    (hcanonical : ∀ a v, versions.get? a = some v → v.Canonical) :
    Sufficient host disk config location settings versions.printed versions := by
  have hstart : (Command.before.start disk.source settings location).outcome =
      (Alignment.report versions).outcome.map fun _ => beforeDocument versions :=
    (outcome_start _ _ _ _).trans (outcome_report_before hload)
  refine ⟨hload, VersionMap.ofPrinted_printed hcanonical, fun hpasses verbose => ?_,
    fun fault hfails => ⟨?_, fun verbose => ?_⟩⟩
  · obtain ⟨least, hrun⟩ := exists_perform_eq hsettings .before verbose location
    have hdocument : beforeDocument versions = passedDocument versions.printed.length := by
      rw [VersionMap.printed, List.length_map]
      rfl
    rw [hpasses] at hstart
    rw [hrun, ← hdocument]
    exact ⟨exit_ofReport_eq_zero_iff.mpr ⟨_, hstart⟩, stdout_ofReport_of_ok hstart⟩
  · rw [outcome_report_before hload, hfails]
    rfl
  · obtain ⟨least, hrun⟩ := exists_perform_eq hsettings .before verbose location
    have hkind := Alignment.kind?_isSome_of_check_eq_error
      ((Alignment.outcome_report versions).symm.trans hfails)
    rw [hfails] at hstart
    rw [hrun]
    exact ofReport_of_finding hstart hkind

/-- **Where the versions of a tree are printed, what is printed is sufficient for the check before a
change.** -/
theorem printed_sufficient
    (h : (perform host disk (.run .versions config verbose location)).exit = .code 0) :
    ∃ settings versions pairs,
      Settings.load host.yaml disk config = .ok settings ∧
      (Command.versions.report disk.source settings location).outcome =
        .ok (printedDocument pairs) ∧
      (perform host disk (.run .versions config verbose location)).stdout =
        (printedDocument pairs).print ∧
      Sufficient host disk config location settings pairs versions := by
  obtain ⟨settings, document, hsettings, hreport⟩ := exit_eq_zero_iff.mp h
  obtain ⟨versions, hload, hdocument⟩ : ∃ versions,
      (loadVersions disk.source location settings).outcome = .ok versions ∧
        printedDocument versions.printed = document := by
    rw [Command.report, Report.outcome_bind] at hreport
    obtain ⟨versions, hload, hdocument⟩ := bind_eq_ok_iff.mp hreport
    exact ⟨versions, hload, (versionsDocument_eq versions).symm.trans (Except.ok.inj hdocument)⟩
  subst hdocument
  obtain ⟨packages, hread, hversions⟩ := loadVersions_eq_ok hload
  have hcanonical : ∀ a v, versions.get? a = some v → v.Canonical := by
    intro a v hget
    obtain ⟨p, hp, -, rfl⟩ := (hversions a v).mp hget
    exact canonical_of_readPackages hread hp
  obtain ⟨least, hrun⟩ := exists_perform_eq hsettings .versions verbose location
  refine ⟨settings, versions, versions.printed, hsettings, hreport, ?_,
    sufficient_printed hsettings hload hcanonical⟩
  rw [hrun]
  exact stdout_ofReport_of_ok ((outcome_start _ _ _ _).trans hreport)

/-- A disk with two crates of the runtime group, of which one is a version behind. -/
def splitGroup : Files.Disk where
  root := .folder [("repo", .folder [
    ("types", crateFolder "[package]\nname = 'aws-smithy-types'\nversion = '1.1.0-rc.1+b'\n"),
    ("http", crateFolder "[package]\nname = 'aws-smithy-http'\nversion = '1.0.0'\n")])]
  standing := []

/-- A tree with one version behind in a group: its versions are printed, and what is printed is
enough to find that out. -/
theorem printed_splitGroup :
    (perform .standard splitGroup (.run .versions none false ⟨["repo"]⟩)).exit = .code 0 ∧
      ∃ settings versions pairs,
        Settings.load Host.standard.yaml splitGroup none = .ok settings ∧
        (Command.versions.report splitGroup.source settings ⟨["repo"]⟩).outcome =
          .ok (printedDocument pairs) ∧
        (perform .standard splitGroup (.run .versions none false ⟨["repo"]⟩)).stdout =
          (printedDocument pairs).print ∧
        Sufficient .standard splitGroup none ⟨["repo"]⟩ settings pairs versions := by
  have h : (perform .standard splitGroup (.run .versions none false ⟨["repo"]⟩)).exit =
      .code 0 := by
    decide +kernel
  exact ⟨h, printed_sufficient h⟩

end CommandLine

end CrateGate
