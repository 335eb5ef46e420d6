import CrateGate.Proofs.CommandLine.Verdict
import CrateGate.Proofs.Settings.Slips

/-!
# What comes of a settings file

A settings file that is there has settings or a problem, unless there is a reason for a slip
(`Settings.Unexplained`). A run with the file answers a problem with an object that explains it; a
slip is that of the run as well (`responds_of_isFile`). All this is said of any host, whichever
reader of YAML documents it has.
-/

namespace CrateGate.CommandLine

open Settings (Explained Unexplained)

variable {host : Host} {disk : Files.Disk} {file : Path} {bytes : ByteArray}

/-- What comes of a settings file that holds some bytes. -/
structure Responds (host : Host) (disk : Files.Disk) (file : Path) (bytes : ByteArray) :
    Prop where
  /-- Loading it ends in settings or in a problem, if and only if there is no reason for a slip. -/
  explained : Explained (Settings.load host.yaml disk (some file)) ↔
    ¬∃ slip, Unexplained host.yaml bytes slip
  /-- It ends in the slips that there is a reason for. -/
  slips : ∀ slip, Settings.load host.yaml disk (some file) = .error (.slip slip) ↔
    Unexplained host.yaml bytes slip
  /-- A file that fits into one chunk and is no UTF-8 is such a reason, for every reader that
  decodes before it looks. -/
  undecodable : host.yaml.DecodesFirst → bytes.size ≤ Files.chunkSize →
    String.fromUTF8? bytes = none → Unexplained host.yaml bytes .undecodable
  /-- A problem is what every run with the file answers, and nothing is logged. -/
  refused : ∀ problem, Settings.load host.yaml disk (some file) = .error (.settings problem) →
    ∀ args command verbose location,
      Invocation.ofArguments host.letters args = .run command (some file) verbose location →
      (performArguments host disk args).Reports host.reasons 2 (.settings problem) ∧
        (performArguments host disk args).stderr = []
  /-- A slip is what every run with the file ends in. -/
  slipped : ∀ slip, Unexplained host.yaml bytes slip →
    ∀ args command verbose location,
      Invocation.ofArguments host.letters args = .run command (some file) verbose location →
      (performArguments host disk args).exit = .slip slip

/-- **What comes of a settings file that is there**, with any reader of YAML documents. It has
settings or a problem unless the reader is stopped by something other than a malformed document, or
reads a document with a key that is no text. A problem is answered with an object that explains it,
and with exit 2; a slip is not answered. -/
theorem responds_of_isFile (host : Host) (hfile : disk.isFile file = .ok true) :
    ∃ bytes, disk.readBytes file = .ok bytes ∧ Responds host disk file bytes := by
  obtain ⟨bytes, hbytes, hexplained, hslips⟩ := Settings.load_explained host.yaml hfile
  refine ⟨bytes, hbytes, ?_⟩
  constructor
  case explained => exact hexplained
  case slips => exact hslips
  case undecodable => exact Settings.unexplained_of_undecodable
  case refused =>
    intro problem hproblem args command verbose location hargs
    obtain ⟨members, hmembers, hexplains⟩ :=
      @exists_explains (.settings problem) rfl host.reasons
    rw [performArguments_of_run hargs, runCommand_of_problem hproblem, hmembers]
    exact ⟨⟨rfl, members, rfl, hexplains⟩, rfl⟩
  case slipped =>
    intro slip hslip args command verbose location hargs
    rw [performArguments_of_run hargs, runCommand, (hslips slip).mpr hslip]

/-- A settings file with a number for a key, read on the host of this library: the run ends in a
slip, and everything said of such files holds of it. -/
theorem responds_keyThatIsNoText :
    let args := ["--config", "key.yaml", "check", "--location", "repo"]
    Settings.slippery.isFile ⟨["key.yaml"]⟩ = .ok true ∧
      (performArguments .standard Settings.slippery args).exit = .slip .badType ∧
      ∃ bytes, Settings.slippery.readBytes ⟨["key.yaml"]⟩ = .ok bytes ∧
        Responds .standard Settings.slippery ⟨["key.yaml"]⟩ bytes := by
  intro args
  have hfile : Settings.slippery.isFile ⟨["key.yaml"]⟩ = .ok true := by decide +kernel
  have hargs : Invocation.ofArguments Host.standard.letters args =
      .run .both (some ⟨["key.yaml"]⟩) false ⟨["repo"]⟩ := by decide +kernel
  obtain ⟨bytes, hbytes, hresponds⟩ := responds_of_isFile .standard hfile
  have hslip : Unexplained Host.standard.yaml bytes .badType :=
    (hresponds.slips .badType).mp (by decide +kernel)
  exact ⟨hfile, hresponds.slipped _ hslip _ _ _ _ hargs, bytes, hbytes, hresponds⟩

end CrateGate.CommandLine
