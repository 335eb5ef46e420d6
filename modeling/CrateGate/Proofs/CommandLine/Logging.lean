import CrateGate.Proofs.CommandLine.Sequence
import CrateGate.Proofs.Discovery.Selection

/-!
# Logging changes no answer

The option that asks for all notes changes nothing of what a command line means but that
(`ofArguments_verbose`), and the severity in the settings changes nothing of what a command does but
which notes are shown (`report_withLevel`). So neither changes how a run exits or what it prints
(`sameAnswer_runCommand`).
-/

namespace CrateGate.CommandLine

open Discovery (Source SameReadings)

variable {host : Host} {rule : LetterRule} {disk disk' : Files.Disk} {source source' : Source}
  {settings : Settings} {location : Path} {command : Command} {config config' : Option Path}
  {verbose verbose' : Bool} {level : Severity}

/-! ## Asking for all notes -/

/-- The same invocation with all notes. -/
def Invocation.loud : Invocation → Invocation
  | .run command config _ location => .run command config true location
  | invocation => invocation

/-- The same options with all notes. -/
def Preamble.loud (p : Preamble) : Preamble :=
  { p with verbose := true }

/-- An option read after all notes were asked for does to the other settings what it does without
that. -/
lemma Preamble.withOption_loud (p : Preamble) (g : Given MainOption) :
    p.loud.withOption g = (p.withOption g).loud := by
  unfold withOption
  cases g.option <;> rfl

/-- The same for any number of options: asking for all notes first or last comes to the same. -/
lemma Preamble.foldl_loud (given : List (Given MainOption)) (p : Preamble) :
    given.foldl withOption p.loud = (given.foldl withOption p).loud := by
  induction given generalizing p with
  | nil => rfl
  | cons g given ih =>
    simp only [List.foldl_cons]
    rw [withOption_loud, ih]

/-- What comes of the options of a command at once is no run. -/
lemma loud_of_readOrders {fuel : Nat} {orders : Orders} {args : List (Argument CommandOption)}
    {invocation : Invocation} (h : readOrders rule command fuel orders args = .error invocation) :
    invocation.loud = invocation := by
  fun_induction readOrders rule command fuel orders args with
  | case1 | case2 => cases h
  | case3 _ _ _ _ _ _ ih => exact ih h
  | case4 =>
    cases h
    rfl
  | case5 =>
    cases h
    rfl
  | case6 _ _ _ _ _ _ _ _ _ _ _ _ ih => exact ih h
  | case7 _ _ _ _ _ ih => exact ih h

/-- What comes after the command is read without a look at whether all notes are asked for; it is
only passed on. -/
lemma readCommand_loud (rule : LetterRule) (p : Preamble) (command : Command)
    (args : List String) :
    readCommand rule p.loud command args = (readCommand rule p command args).loud := by
  unfold readCommand
  cases classifyAll commandOptions args with
  | error complaint => rfl
  | ok args =>
    simp only
    cases h : readOrders rule command (args.length + 1) {} args with
    | error invocation => exact (loud_of_readOrders h).symm
    | ok orders =>
      simp only
      cases orders.location with
      | none => rfl
      | some location =>
        change (if (p.extras ++ orders.extras).isEmpty then _ else _) = _
        split <;> rfl

/-- The choice of a command does not depend on whether all notes are asked for. -/
lemma readChoice_loud (rule : LetterRule) (p : Preamble) (name : String) (args : List String) :
    readChoice rule p.loud name args = (readChoice rule p name args).loud := by
  unfold readChoice
  cases Command.ofName? name with
  | none => rfl
  | some command => exact readCommand_loud rule p command args

/-- Without a command there is nothing that notes could be shown of. -/
lemma withoutCommand_loud (extras : List String) :
    (withoutCommand extras).loud = withoutCommand extras := by
  unfold withoutCommand
  split <;> rfl

/-- To ask for all notes before the options are read comes to the same as to do so afterwards. -/
lemma readMain_loud (rule : LetterRule) (fuel : Nat) (p : Preamble)
    (args : List (Argument MainOption)) :
    readMain rule fuel p.loud args = (readMain rule fuel p args).loud := by
  induction fuel generalizing p args with
  | zero => exact (withoutCommand_loud p.extras).symm
  | succ fuel ih =>
    cases args with
    | nil => exact (withoutCommand_loud p.extras).symm
    | cons arg rest =>
      cases arg with
      | positional name => exact readChoice_loud rule p name _
      | dashes =>
        simp only [readMain]
        split
        · exact (withoutCommand_loud _).symm
        · rfl
      | option m text =>
        simp only [readMain]
        cases m.option with
        | none => exact ih { p with extras := p.extras ++ [text] } rest
        | some o =>
          simp only
          cases readOption rule mainOptions o m rest with
          | error complaint => rfl
          | ok taken =>
            simp only
            split
            · rfl
            · rw [Preamble.foldl_loud]
              exact ih { taken.given.foldl Preamble.withOption p with extras := _ } taken.rest

/-- **A command line that asks for all notes first means the same with all notes.** -/
theorem ofArguments_verbose (rule : LetterRule) {flag : String}
    (hflag : flag ∈ ["--verbose", "-v"]) (args : List String) :
    Invocation.ofArguments rule (flag :: args) = (Invocation.ofArguments rule args).loud := by
  have hclassify : classify mainOptions flag =
      .ok (.option { option := some .verbose, name := flag, value := none } flag) := by
    rcases List.mem_pair.mp hflag with rfl | rfl <;> rfl
  have hne : flag ≠ "--" := by
    rcases List.mem_pair.mp hflag with rfl | rfl <;> decide
  unfold Invocation.ofArguments
  rw [classifyAll, if_neg hne, hclassify]
  cases classifyAll mainOptions args with
  | error complaint => rfl
  | ok args => exact readMain_loud rule (args.length + 1) {} args

/-! ## The severity in the settings -/

/-- The same settings with another severity. -/
def withLevel (settings : Settings) (level : Severity) : Settings :=
  { settings with logLevel := level }

/-- The severity changes nothing of what a command does. -/
lemma report_withLevel (command : Command) (source : Source) (settings : Settings)
    (level : Severity) (location : Path) :
    command.report source (withLevel settings level) location =
      command.report source settings location := by
  cases command <;> rfl

/-- A command sees of a source what the readings of it leave behind. -/
lemma report_congr (h : SameReadings source source' location settings) (command : Command) :
    command.report source settings location = command.report source' settings location := by
  cases command <;>
    simp only [Command.report, Discovery.checkBefore, Discovery.checkAfter,
      Discovery.checkAfterWith, h.versions, h.schedule]

/-- Two sources with the same manifests at a location: a search comes to the same, and what is found
reads the same. -/
structure SameManifests (source source' : Source) (location : Path) (settings : Settings) :
    Prop where
  find : source.find location settings.manifestName settings.excludedDirs =
    source'.find location settings.manifestName settings.excludedDirs
  read : ∀ paths, source.find location settings.manifestName settings.excludedDirs = .ok paths →
    ∀ p ∈ paths, source.read p = source'.read p

/-- If the searches and the texts of two sources are the same, all readings of them are. -/
lemma SameManifests.sameReadings (h : SameManifests source source' location settings) :
    SameReadings source source' location settings := by
  have hfind : Discovery.findManifests source location settings =
      Discovery.findManifests source' location settings := by
    unfold Discovery.findManifests
    rw [h.find]
  apply SameReadings.of_readPackages
  apply Discovery.readPackages_congr hfind
  intro paths hpaths p hp
  have hok : source.find location settings.manifestName settings.excludedDirs = .ok paths := by
    unfold Discovery.findManifests at hpaths
    split at hpaths
    · next hok =>
      obtain rfl := Except.ok.inj hpaths
      exact hok
    · cases hpaths
    · cases hpaths
  unfold Discovery.readManifest
  rw [h.read paths hok p hp]

/-! ## Runs -/

/-- **Logging changes no answer.** Two runs of a command with settings that differ in the severity
alone, on the same manifests, exit in the same way and print the same, whatever notes are asked
for. -/
theorem sameAnswer_runCommand (hsettings : Settings.load host.yaml disk config = .ok settings)
    (hsettings' : Settings.load host.yaml disk' config' = .ok (withLevel settings level))
    (hsame : SameManifests disk.source disk'.source location settings) :
    (runCommand host disk command config verbose location).SameAnswer
      (runCommand host disk' command config' verbose' location) := by
  unfold runCommand
  rw [hsettings, hsettings']
  apply sameAnswer_ofReport
  rw [outcome_start, outcome_start, report_withLevel, report_congr hsame.sameReadings]

/-- Runs of one invocation with and without all notes give one answer. -/
lemma sameAnswer_loud (host : Host) (disk : Files.Disk) (invocation : Invocation) :
    (perform host disk invocation.loud).SameAnswer (perform host disk invocation) := by
  cases invocation with
  | run command config verbose location =>
    change (runCommand host disk command config true location).SameAnswer
      (runCommand host disk command config verbose location)
    unfold runCommand
    split
    · exact ⟨rfl, rfl⟩
    · exact ⟨rfl, rfl⟩
    · exact sameAnswer_ofReport rfl
  | _ => exact ⟨rfl, rfl⟩

end CrateGate.CommandLine
