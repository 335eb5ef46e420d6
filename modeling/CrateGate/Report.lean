import CrateGate.Fault
import CrateGate.Settings.Basic

/-!
# Reports

What an operation leaves behind: the notes it took on its way, and how it ended. Operations follow
one another until one ends in a fault; the notes up to there stay.
-/

namespace CrateGate

/-- The part of the gate that takes a note. -/
inductive Scribe
  | gate
  | discovery
  | validation
deriving DecidableEq, Repr

/-- The name of a part as it stands before its notes. -/
def Scribe.name : Scribe → String
  | gate => "release_gate"
  | discovery => "release_gate.discovery"
  | validation => "release_gate.validate"

/-- A note for whoever watches the run. -/
structure Note where
  /-- How grave it is. -/
  severity : Severity
  /-- Who took it. -/
  scribe : Scribe
  /-- What it says. -/
  text : String
deriving DecidableEq, Repr

/-- A note as a line of text. -/
def Note.line (n : Note) : String :=
  n.severity.name ++ " " ++ n.scribe.name ++ ": " ++ n.text

/-- The notes of an operation and how it ended. -/
@[ext] structure Report (α : Type) where
  /-- The notes in the order they were taken. -/
  notes : List Note
  /-- The result, or the fault that came before it. -/
  outcome : Except Fault α
deriving Repr

namespace Report

variable {α β : Type}

/-- An operation that takes no notes. -/
def ofExcept (outcome : Except Fault α) : Report α :=
  ⟨[], outcome⟩

/-- One operation after another. -/
def bind (r : Report α) (next : α → Report β) : Report β :=
  match r.outcome with
  | .error fault => ⟨r.notes, .error fault⟩
  | .ok a => ⟨r.notes ++ (next a).notes, (next a).outcome⟩

instance : Monad Report where
  pure a := ⟨[], .ok a⟩
  bind := bind

/-- An operation that only takes a note. -/
def note (severity : Severity) (scribe : Scribe) (text : String) : Report Unit :=
  ⟨[⟨severity, scribe, text⟩], .ok ()⟩

/-- An operation that ends in a fault. -/
def fail (fault : Fault) : Report α :=
  ⟨[], .error fault⟩

/-- A report of a value alone comes to that value. -/
@[simp] theorem outcome_pure (a : α) : (pure a : Report α).outcome = .ok a := rfl

/-- A report of an outcome alone comes to that outcome, be it a value or a fault. -/
@[simp] theorem outcome_ofExcept (x : Except Fault α) : (ofExcept x).outcome = x := rfl

/-- A note is left behind and nothing can go wrong with it. -/
@[simp] theorem outcome_note (severity : Severity) (scribe : Scribe) (text : String) :
    (note severity scribe text).outcome = .ok () := rfl

/-- A report of a fault comes to that fault, whatever value was asked for. -/
@[simp] theorem outcome_fail (fault : Fault) : (fail fault : Report α).outcome = .error fault :=
  rfl

/-- How a sequence ends depends on how its parts end, and on no note. -/
@[simp] theorem outcome_bind (r : Report α) (next : α → Report β) :
    (r >>= next).outcome = r.outcome.bind fun a => (next a).outcome := by
  cases r with
  | mk notes outcome => cases outcome <;> rfl

/-- It makes no difference how a sequence is grouped. -/
protected theorem bind_assoc {γ : Type} (r : Report α) (next : α → Report β)
    (last : β → Report γ) : r >>= next >>= last = r >>= fun a => next a >>= last := by
  obtain ⟨notes, fault | a⟩ := r
  · rfl
  · change Report.bind (Report.bind _ _) _ = Report.bind _ fun a => Report.bind _ _
    simp only [Report.bind]
    cases (next a).outcome with
    | error fault => rfl
    | ok b => simp only [List.append_assoc]

/-- A report is what it was when its value is passed through as it is. -/
protected theorem id_map (r : Report α) : id <$> r = r := by
  obtain ⟨notes, fault | a⟩ := r
  · rfl
  · change (⟨notes ++ [], .ok a⟩ : Report α) = _
    rw [List.append_nil]

instance : LawfulMonad Report :=
  .mk' _ Report.id_map (fun _ _ => rfl) Report.bind_assoc

end Report

end CrateGate
