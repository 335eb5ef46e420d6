import CrateGate.Proofs.CommandLine.Logging
import CrateGate.Proofs.CommandLine.Versions
import CrateGate.Proofs.Settings.Load

/-!
# What the exit of a run says

A run that does not end in a slip takes one of three courses (`Course`). It is refused, since there
is a problem with the settings; it passes, since every call of its command returns; or it fails with
the fault of the first call that does not. The exit tells which, and what is printed explains it
(`verdict_of_arguments`).
-/

namespace CrateGate

open Discovery (Reasons Source)

/-- Every finding has a wording. -/
lemma Fault.exists_message {fault : Fault} (h : fault.kind?.isSome) (reasons : Reasons) :
    ∃ message, fault.message? reasons = some message := by
  cases fault with
  | slip => cases h
  | _ => exact ⟨_, rfl⟩

namespace CommandLine

variable {host : Host} {disk : Files.Disk} {source : Source} {location : Path}
  {settings : Settings} {command : Command} {config : Option Path} {verbose : Bool}
  {reasons : Reasons} {fault : Fault} {document : Json} {members : List (String × Json)}
  {run : Outcome}

/-! ## The calls of a command -/

/-- The calls of the check before a change: the versions are loaded, and then they are checked. -/
def callsBefore (source : Source) (settings : Settings) (location : Path) : Except Fault Unit := do
  let versions ← (Discovery.loadVersions source location settings).outcome
  Alignment.check versions

/-- The call of the check after a change, by a discoverer with the settings. -/
def callsAfter (source : Source) (settings : Settings) (location : Path) : Except Fault Unit := do
  let _ ← (Discovery.checkAfterWith (fun l => Discovery.discover source l settings)
    location).outcome
  .ok ()

/-- The calls of a command, in their order: the first that fails is the last that is made. -/
def Command.calls (source : Source) (settings : Settings) (location : Path) :
    Command → Except Fault Unit
  | versions => do
    let _ ← (Discovery.loadVersions source location settings).outcome
    .ok ()
  | before => callsBefore source settings location
  | after => callsAfter source settings location
  | both => do
    callsBefore source settings location
    callsAfter source settings location

/-- The check before a change ends as its calls do, be it well or with a fault. -/
lemma outcome_before (source : Source) (settings : Settings) (location : Path) :
    (Command.before.report source settings location).outcome.map (fun _ => ()) =
      callsBefore source settings location := by
  unfold callsBefore
  cases hload : (Discovery.loadVersions source location settings).outcome with
  | error fault =>
    simp only [Command.report, Discovery.checkBefore, Report.outcome_bind, hload]
    rfl
  | ok versions =>
    rw [outcome_report_before hload, Alignment.outcome_report]
    change _ = Alignment.check versions
    cases Alignment.check versions <;> rfl

/-- The check after a change ends as its call does, since what is printed of a schedule cannot go
wrong. -/
lemma outcome_after (source : Source) (settings : Settings) (location : Path) :
    (Command.after.report source settings location).outcome.map (fun _ => ()) =
      callsAfter source settings location := by
  unfold callsAfter
  rw [Command.report, Report.outcome_bind, Discovery.checkAfter]
  cases (Discovery.checkAfterWith _ location).outcome <;> rfl

/-- **A command ends as the calls that it makes.** -/
theorem outcome_report_calls (command : Command) (source : Source) (settings : Settings)
    (location : Path) :
    (command.report source settings location).outcome.map (fun _ => ()) =
      command.calls source settings location := by
  cases command with
  | versions =>
    rw [Command.report, Report.outcome_bind, Command.calls]
    cases (Discovery.loadVersions source location settings).outcome <;> rfl
  | before => exact outcome_before source settings location
  | after => exact outcome_after source settings location
  | both =>
    rw [report_both, Report.outcome_bind, Command.calls, ← outcome_before, ← outcome_after]
    cases (Command.before.report source settings location).outcome with
    | error fault => rfl
    | ok before =>
      simp only [Except.bind, Report.outcome_bind]
      cases (Command.after.report source settings location).outcome <;> rfl

/-- A command that comes to a document has made all its calls. -/
lemma calls_of_ok (h : (command.report source settings location).outcome = .ok document) :
    command.calls source settings location = .ok () := by
  rw [← outcome_report_calls, h]
  rfl

/-- A command that fails does so with the fault of a call, and no later call is made. -/
lemma calls_of_error (h : (command.report source settings location).outcome = .error fault) :
    command.calls source settings location = .error fault := by
  rw [← outcome_report_calls, h]
  rfl

/-! ## What is printed -/

/-- The status in the document of a command that passed. -/
def Command.success : Command → String
  | versions => "OK"
  | _ => "PASS"

/-- The members of an object give one status. -/
structure GivesStatus (members : List (String × Json)) (status : String) : Prop where
  status : ("status", .text status) ∈ members
  once : (members.map (·.1)).Nodup

/-- The document of a command that passed is an object that says so. -/
lemma exists_givesStatus (h : (command.report source settings location).outcome = .ok document) :
    ∃ members, document = .object members ∧ GivesStatus members command.success := by
  cases command <;>
    simp only [Command.report, Report.outcome_bind, bind_eq_ok_iff, Report.outcome_pure]
      at h
  case versions =>
    obtain ⟨versions, -, heq⟩ := h
    obtain rfl := Except.ok.inj heq
    exact ⟨_, rfl, by simp [Command.success], by simp⟩
  case before =>
    obtain ⟨versions, -, heq⟩ := h
    obtain rfl := Except.ok.inj heq
    exact ⟨_, rfl, by simp [Command.success], by simp⟩
  case after =>
    obtain ⟨s, -, heq⟩ := h
    obtain rfl := Except.ok.inj heq
    exact ⟨_, rfl, by simp [Command.success], by simp [scheduleMembers]⟩
  case both =>
    obtain ⟨versions, -, s, -, heq⟩ := h
    obtain rfl := Except.ok.inj heq
    exact ⟨_, rfl, by simp [Command.success], by simp⟩

/-- The members of an object explain a fault: the kind and the wording are those of the fault. A
problem of discovery has a code as well, and details if there are any; nothing else is said. -/
structure Explains (reasons : Reasons) (members : List (String × Json)) (fault : Fault) :
    Prop where
  status : GivesStatus members "FAIL"
  kind : ∃ kind, fault.kind? = some kind ∧ ("kind", .text kind) ∈ members
  error : ∃ message, fault.message? reasons = some message ∧ ("error", .text message) ∈ members
  code : ∀ v, ("code", v) ∈ members ↔
    ∃ problem, fault = .discovery problem ∧ v = .text problem.code
  details : ∀ v, ("details", v) ∈ members ↔
    ∃ problem, fault = .discovery problem ∧ problem.details ≠ [] ∧ v = texts problem.details
  keys : ∀ member ∈ members, member.1 ∈ ["status", "kind", "error", "code", "details"]

/-- The document of a finding explains it. -/
lemma exists_explains (h : fault.kind?.isSome) (reasons : Reasons) :
    ∃ members, findingDocument reasons fault = .object members ∧
      Explains reasons members fault := by
  obtain ⟨kind, hkind⟩ := Option.isSome_iff_exists.mp h
  obtain ⟨message, hmessage⟩ := Fault.exists_message h reasons
  refine ⟨_, rfl, ⟨by simp, ?_⟩, ⟨kind, hkind, by simp [hkind]⟩,
    ⟨message, hmessage, by simp [hmessage]⟩, ?_, ?_, ?_⟩
  all_goals
    cases fault with
    | discovery problem =>
      rcases hdetails : problem.details with _ | ⟨detail, details⟩ <;>
        simp [findingMembers, hdetails]
    | _ => simp [findingMembers]

/-- A run exits with some code and prints one object, which explains a fault. -/
structure Outcome.Reports (reasons : Reasons) (run : Outcome) (code : Nat) (fault : Fault) :
    Prop where
  exit : run.exit = .code code
  object : ∃ members, run.stdout = (Json.object members).print ∧ Explains reasons members fault

/-! ## Courses -/

/-- The courses that a run can take. -/
inductive Course (host : Host) (disk : Files.Disk) (command : Command) (config : Option Path)
    (location : Path) (run : Outcome) : Prop
  | refused {problem : Settings.Problem}
      (problem_eq : Settings.load host.yaml disk config = .error (.settings problem))
      (reports : run.Reports host.reasons 2 (.settings problem)) (silent : run.stderr = [])
  | passed {settings : Settings} {members : List (String × Json)}
      (loaded : Settings.load host.yaml disk config = .ok settings)
      (calls : command.calls disk.source settings location = .ok ()) (exit : run.exit = .code 0)
      (stdout : run.stdout = (Json.object members).print)
      (status : GivesStatus members command.success)
  | failed {settings : Settings} {fault : Fault}
      (loaded : Settings.load host.yaml disk config = .ok settings)
      (calls : command.calls disk.source settings location = .error fault)
      (reports : run.Reports host.reasons 1 fault)
  | slipped {slip : Slip} (exit : run.exit = .slip slip)

/-- A run with settings passes, fails or slips: what its report came to decides which. -/
lemma course_of_settings (hsettings : Settings.load host.yaml disk config = .ok settings) :
    Course host disk command config location
      (runCommand host disk command config verbose location) := by
  obtain ⟨least, hrun⟩ := exists_perform_eq hsettings command verbose location
  change runCommand host disk command config verbose location = _ at hrun
  rw [hrun]
  have hstart := outcome_start command disk.source settings location
  cases hreport : (command.start disk.source settings location).outcome with
  | ok document =>
    have hdocument := hstart.symm.trans hreport
    obtain ⟨members, rfl, hstatus⟩ := exists_givesStatus hdocument
    exact .passed hsettings (calls_of_ok hdocument)
      (exit_ofReport_eq_zero_iff.mpr ⟨_, hreport⟩) (stdout_ofReport_of_ok hreport) hstatus
  | error fault =>
    by_cases hkind : fault.kind?.isSome
    · obtain ⟨members, hmembers, hexplains⟩ := exists_explains hkind host.reasons
      have hreports : (Outcome.ofReport host.reasons least
          (command.start disk.source settings location)).Reports host.reasons 1 fault := by
        obtain ⟨hexit, hstdout⟩ := ofReport_of_finding hreport hkind
        exact ⟨hexit, members, hstdout.trans (by rw [hmembers]), hexplains⟩
      exact .failed hsettings (calls_of_error (hstart.symm.trans hreport)) hreports
    · cases fault with
      | slip slip =>
        have hexit : (Outcome.ofReport host.reasons least
            (command.start disk.source settings location)).exit = .slip slip := by
          unfold Outcome.ofReport
          rw [hreport]
        exact .slipped hexit
      | _ => exact absurd rfl hkind

/-- A run with a problem of the settings leaves the same behind whatever else there is. -/
lemma runCommand_of_problem {problem : Settings.Problem}
    (h : Settings.load host.yaml disk config = .error (.settings problem)) :
    runCommand host disk command config verbose location =
      ⟨.code 2, (findingDocument host.reasons (.settings problem)).print, []⟩ := by
  rw [runCommand, h]

/-- **Every run takes one of the courses.** -/
theorem course_runCommand (host : Host) (disk : Files.Disk) (command : Command)
    (config : Option Path) (verbose : Bool) (location : Path) :
    Course host disk command config location
      (runCommand host disk command config verbose location) := by
  cases hsettings : Settings.load host.yaml disk config with
  | ok settings => exact course_of_settings hsettings
  | error fault =>
    rcases Settings.fault_of_load hsettings with ⟨problem, rfl⟩ | ⟨slip, rfl⟩
    · obtain ⟨members, hmembers, hexplains⟩ :=
        @exists_explains (.settings problem) rfl host.reasons
      rw [runCommand_of_problem hsettings, hmembers]
      exact .refused hsettings ⟨rfl, members, rfl, hexplains⟩ rfl
    · have hexit :
          (runCommand host disk command config verbose location).exit = .slip slip := by
        rw [runCommand, hsettings]
      exact .slipped hexit

/-! ## Verdicts -/

/-- What the exit of a run says. -/
structure Verdict (host : Host) (disk : Files.Disk) (command : Command) (config : Option Path)
    (location : Path) (run : Outcome) : Prop where
  /-- It is 2 if and only if there is a problem with the settings. -/
  refused : run.exit = .code 2 ↔
    ∃ problem, Settings.load host.yaml disk config = .error (.settings problem)
  /-- The problem is explained. Nothing is logged, and whatever else is on the disk makes no
  difference, nor what is to be done with it. -/
  refusal : ∀ problem, Settings.load host.yaml disk config = .error (.settings problem) →
    run.Reports host.reasons 2 (.settings problem) ∧ run.stderr = [] ∧
    ∀ disk' command' verbose location',
      Settings.load host.yaml disk' config = .error (.settings problem) →
      runCommand host disk' command' config verbose location' = run
  /-- It is 0 if and only if there are settings and every call of the command returns. -/
  passed : run.exit = .code 0 ↔ ∃ settings, Settings.load host.yaml disk config = .ok settings ∧
    command.calls disk.source settings location = .ok ()
  /-- An object says so. -/
  pass : run.exit = .code 0 → ∃ members, run.stdout = (Json.object members).print ∧
    GivesStatus members command.success
  /-- It is 1 if and only if there are settings and a call of the command fails. -/
  failed : run.exit = .code 1 ↔ ∃ settings fault,
    Settings.load host.yaml disk config = .ok settings ∧
    command.calls disk.source settings location = .error fault
  /-- The fault of the first such call is explained. -/
  failure : ∀ settings fault, Settings.load host.yaml disk config = .ok settings →
    command.calls disk.source settings location = .error fault → run.Reports host.reasons 1 fault

/-- The course of a run that does not slip is what its exit says. -/
lemma Course.verdict
    (h : Course host disk command config location
      (runCommand host disk command config verbose location))
    (hslip : ∀ slip, (runCommand host disk command config verbose location).exit ≠ .slip slip) :
    Verdict host disk command config location
      (runCommand host disk command config verbose location) := by
  cases h with
  | refused hproblem hreports hsilent =>
    constructor
    case refused => simp [hproblem, hreports.exit]
    case refusal =>
      intro problem h
      obtain rfl : _ = problem := Fault.settings.inj (Except.error.inj (hproblem.symm.trans h))
      refine ⟨hreports, hsilent, ?_⟩
      intro disk' command' verbose' location' h'
      rw [runCommand_of_problem h', runCommand_of_problem h]
    case passed => simp [hproblem, hreports.exit]
    case pass => simp [hreports.exit]
    case failed => simp [hproblem, hreports.exit]
    case failure => simp [hproblem]
  | passed hloaded hcalls hexit hstdout hstatus =>
    constructor
    case refused => simp [hloaded, hexit]
    case refusal => simp [hloaded]
    case passed =>
      simp only [hexit, true_iff]
      exact ⟨_, hloaded, hcalls⟩
    case pass =>
      intro _
      exact ⟨_, hstdout, hstatus⟩
    case failed => simp [hloaded, hcalls, hexit]
    case failure =>
      intro settings fault hloaded' hcalls'
      obtain rfl := Except.ok.inj (hloaded.symm.trans hloaded')
      cases hcalls.symm.trans hcalls'
  | failed hloaded hcalls hreports =>
    constructor
    case refused => simp [hloaded, hreports.exit]
    case refusal => simp [hloaded]
    case passed => simp [hloaded, hcalls, hreports.exit]
    case pass => simp [hreports.exit]
    case failed =>
      simp only [hreports.exit, true_iff]
      exact ⟨_, _, hloaded, hcalls⟩
    case failure =>
      intro settings fault hloaded' hcalls'
      obtain rfl := Except.ok.inj (hloaded.symm.trans hloaded')
      obtain rfl := Except.error.inj (hcalls.symm.trans hcalls')
      exact hreports
  | slipped hexit => exact absurd hexit (hslip _)

/-- What makes no difference to how a run exits and to what it prints. -/
structure LoggingApart (host : Host) (disk : Files.Disk) (args : List String)
    (command : Command) (config : Option Path) (location : Path) : Prop where
  /-- Asking for all notes before anything else. -/
  flag : ∀ flag ∈ ["--verbose", "-v"],
    (performArguments host disk (flag :: args)).SameAnswer (performArguments host disk args)
  /-- Asking for them anywhere. -/
  verbosity : ∀ args' verbose',
    Invocation.ofArguments host.letters args' = .run command config verbose' location →
    (performArguments host disk args').SameAnswer (performArguments host disk args)
  /-- The severity in the settings, on the same manifests. -/
  severity : ∀ settings level disk' args' config' verbose',
    Invocation.ofArguments host.letters args' = .run command config' verbose' location →
    Settings.load host.yaml disk config = .ok settings →
    Settings.load host.yaml disk' config' = .ok (withLevel settings level) →
    SameManifests disk.source disk'.source location settings →
    (performArguments host disk args).SameAnswer (performArguments host disk' args')

/-- Logging makes no difference to the answer of a command line. -/
lemma loggingApart_of_run {args : List String}
    (hargs : Invocation.ofArguments host.letters args = .run command config verbose location) :
    LoggingApart host disk args command config location where
  flag flag hflag := by
    unfold performArguments
    rw [ofArguments_verbose host.letters hflag]
    exact sameAnswer_loud host disk _
  verbosity args' verbose' hargs' := by
    have hloud := sameAnswer_loud host disk (.run command config verbose location)
    have hloud' := sameAnswer_loud host disk (.run command config verbose' location)
    unfold performArguments
    rw [hargs, hargs']
    exact ⟨hloud'.1.symm.trans hloud.1, hloud'.2.symm.trans hloud.2⟩
  severity settings level disk' args' config' verbose' hargs' hsettings hsettings' hsame := by
    unfold performArguments
    rw [hargs, hargs']
    exact sameAnswer_runCommand hsettings hsettings' hsame

/-- A command line that names a command is run as that command. -/
lemma performArguments_of_run {args : List String}
    (hargs : Invocation.ofArguments host.letters args = .run command config verbose location) :
    performArguments host disk args = runCommand host disk command config verbose location := by
  unfold performArguments
  rw [hargs]
  rfl

/-- A disk with a settings file, and a tree that declares a crate twice. -/
def repeatedCrate : Files.Disk where
  root := .folder [
    ("gate.yaml", .file "log_level: error\n".toUTF8),
    ("repo", .folder [
      ("a", crateFolder "[package]\nname = 'a'\nversion = '1.0.0'\n"),
      ("b", crateFolder "[package]\nname = 'a'\nversion = '1.0.0'\n")])]
  standing := []

end CommandLine

end CrateGate
