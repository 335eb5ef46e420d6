import CrateGate.CommandLine.Run
import CrateGate.Proofs.Alignment
import CrateGate.Proofs.Discovery.Run

/-!
# What a run that passes says of a tree

A run exits with 0 only if its command came to a document (`exit_eq_zero_iff`). For a check that
means that the groups are aligned and that a schedule could be made. No single step looks at the
pins on the crates of a group; that they are at the group's version follows from both together
(`uniform_of_get?`).
-/

namespace CrateGate

open Category Discovery CrateGate.Graph

namespace CommandLine

variable {host : Host} {disk : Files.Disk} {source : Source} {location : Path}
  {settings : Settings} {command : Command} {config : Option Path} {verbose : Bool}
  {reasons : Reasons} {least : Severity} {packages : List Package} {versions : VersionMap}
  {anchor : String} {v : Version} {member : String → Prop}

/-! ## Runs that exit with 0 -/

/-- A report is answered with 0 if and only if it came to a document. -/
lemma exit_ofReport_eq_zero_iff {r : Report Json} :
    (Outcome.ofReport reasons least r).exit = .code 0 ↔
      ∃ document, r.outcome = .ok document := by
  unfold Outcome.ofReport
  cases r.outcome with
  | ok document => simp
  | error fault => cases fault <;> simp

/-- A command ends as it does without its opening note. -/
lemma outcome_start (command : Command) (source : Source) (settings : Settings)
    (location : Path) :
    (command.start source settings location).outcome =
      (command.report source settings location).outcome :=
  Report.outcome_bind _ _

/-- A run exits with 0 if and only if there are settings and the command comes to a document. -/
lemma exit_eq_zero_iff :
    (perform host disk (.run command config verbose location)).exit = .code 0 ↔
      ∃ settings document, Settings.load host.yaml disk config = .ok settings ∧
        (command.report disk.source settings location).outcome = .ok document := by
  have hrun : perform host disk (.run command config verbose location) =
      runCommand host disk command config verbose location := rfl
  rw [hrun]
  unfold runCommand
  cases Settings.load host.yaml disk config with
  | error fault => cases fault <;> simp
  | ok settings => simp [exit_ofReport_eq_zero_iff, outcome_start]

/-- Both checks come to a document only if the groups are aligned and there is a schedule. -/
lemma outcome_report_both {document : Json}
    (h : (Command.both.report source settings location).outcome = .ok document) :
    ∃ versions s, (loadVersions source location settings).outcome = .ok versions ∧
      Alignment.check versions = .ok () ∧
      (discover source location settings).outcome = .ok s := by
  unfold Command.report at h
  simp only [Report.outcome_bind, bind_eq_ok_iff, outcome_checkAfter] at h
  obtain ⟨versions, hbefore, s, hafter, -⟩ := h
  obtain ⟨hload, haligned⟩ := checkBefore_eq_ok_iff.mp hbefore
  exact ⟨versions, s, hload, haligned, hafter⟩

/-! ## Groups of one version -/

/-- The crates of a group have one version: that of the anchor, which is there, and every pin on a
crate of the group is at it. -/
def Uniform (packages : List Package) (anchor : String) (member : String → Prop) : Prop :=
  ∃ root ∈ packages, root.name = anchor ∧
    (∀ p ∈ packages, member p.name → p.version = root.version) ∧
    ∀ p ∈ packages, ∀ pin ∈ p.pins, ∀ a, pin.label = .crate a → member a →
      pin.version = root.version

/-- A tree has a crate of a group, or a pin on one. -/
def Occurs (packages : List Package) (member : String → Prop) : Prop :=
  ∃ p ∈ packages, member p.name ∨ ∃ pin ∈ p.pins, ∃ a, pin.label = .crate a ∧ member a

/-- If pins resolve, a group that is pinned has a crate. -/
lemma Occurs.exists_mem (h : Occurs packages member) (hresolved : Resolved packages) :
    ∃ p ∈ packages, member p.name := by
  obtain ⟨p, hp, hname | ⟨pin, hpin, a, hlabel, ha⟩⟩ := h
  · exact ⟨p, hp, hname⟩
  · obtain ⟨q, hq, hlabel', -⟩ := hresolved p hp pin hpin
    obtain rfl := Label.crate.inj (hlabel.symm.trans hlabel')
    exact ⟨q, hq, ha⟩

/-- If the crates of a group have the version of the anchor and pins resolve, the pins on the crates
of the group are at it too. -/
lemma uniform_of_get? (hversions : VersionsOf packages versions) (hresolved : Resolved packages)
    (hanchor : versions.get? anchor = some v)
    (hmember : ∀ a w, versions.get? a = some w → member a → w = v) :
    Uniform packages anchor member := by
  obtain ⟨root, hroot, hname, rfl⟩ := (hversions anchor v).mp hanchor
  have hcrates : ∀ p ∈ packages, member p.name → p.version = root.version := by
    intro p hp hpname
    exact hmember p.name p.version ((hversions _ _).mpr ⟨p, hp, rfl, rfl⟩) hpname
  refine ⟨root, hroot, hname, hcrates, ?_⟩
  intro p hp pin hpin a hlabel ha
  obtain ⟨q, hq, hlabel', hversion⟩ := hresolved p hp pin hpin
  obtain rfl := Label.crate.inj (hlabel.symm.trans hlabel')
  rw [hversion]
  exact hcrates q hq ha

/-- **A check that passes is right about the groups of a tree**: each has one version, in its crates
and in the pins on them. -/
theorem check_sound
    (h : (perform host disk (.run .both config verbose location)).exit = .code 0) :
    ∃ settings packages, Settings.load host.yaml disk config = .ok settings ∧
      (readPackages disk.source location settings).outcome = .ok packages ∧
      Uniform packages "aws-smithy-types" IsRuntime ∧
      (Occurs packages IsDistribution → Uniform packages "aws-config" IsDistribution) := by
  obtain ⟨settings, document, hsettings, hreport⟩ := exit_eq_zero_iff.mp h
  obtain ⟨versions, s, hload, haligned, hdiscover⟩ := outcome_report_both hreport
  obtain ⟨packages, hread, hversions⟩ := loadVersions_eq_ok hload
  have hresolved := (schedulable_of_discover hread hdiscover).resolved
  obtain ⟨v, hanchor, hmember⟩ := Alignment.check_eq_ok_iff.mp haligned
  refine ⟨settings, packages, hsettings, hread, ?_, ?_⟩
  · exact uniform_of_get? hversions hresolved hanchor fun a w hget => (hmember a w hget).1
  · intro hoccurs
    obtain ⟨p, hp, hname⟩ := hoccurs.exists_mem hresolved
    have hget := (hversions p.name p.version).mpr ⟨p, hp, rfl, rfl⟩
    have hanchor' := (hmember p.name p.version hget).2 hname
    refine uniform_of_get? hversions hresolved hanchor' fun a w hget ha => ?_
    exact Option.some.inj (((hmember a w hget).2 ha).symm.trans hanchor')

/-- A directory with a manifest. -/
def crateFolder (manifest : String) : Files.Entry :=
  .folder [("Cargo.toml", .file manifest.toUTF8)]

/-- A disk with a crate of each group, of which one pins the other. -/
def twoGroups : Files.Disk where
  root := .folder [("repo", .folder [
    ("types", crateFolder "[package]\nname = 'aws-smithy-types'\nversion = '1.0.0'\n"),
    ("config", crateFolder ("[package]\nname = 'aws-config'\nversion = '2.0.0'\n" ++
      "[dependencies]\naws-smithy-types.path = '../types'\n" ++
      "aws-smithy-types.version = '=1.0.0'\n"))])]
  standing := []

/-- A disk on which both checks pass: its two groups are uniform, as is said of every such disk. -/
theorem check_twoGroups :
    (perform .standard twoGroups (.run .both none false ⟨["repo"]⟩)).exit = .code 0 ∧
      ∃ settings packages, Settings.load Host.standard.yaml twoGroups none = .ok settings ∧
        (readPackages twoGroups.source ⟨["repo"]⟩ settings).outcome = .ok packages ∧
        Uniform packages "aws-smithy-types" IsRuntime ∧
        (Occurs packages IsDistribution → Uniform packages "aws-config" IsDistribution) := by
  have h : (perform .standard twoGroups (.run .both none false ⟨["repo"]⟩)).exit = .code 0 := by
    decide +kernel
  exact ⟨h, check_sound h⟩

end CommandLine

end CrateGate
