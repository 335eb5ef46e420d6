import CrateGate.Settings.Load
import Mathlib.Tactic.Lemma

/-!
# What loading settings comes to

With any reader, the settings of a file that is there are those of what the reader makes of its
bytes (`load_of_readBytes`). Whatever goes wrong is a problem of the settings or a slip
(`fault_of_load`).
-/

namespace CrateGate

namespace Files.Disk

variable {d : Disk} {p : Path}

/-- A file that is there can be read: what finds it is what opens it. -/
lemma exists_readBytes (h : d.isFile p = .ok true) : ∃ bytes, d.readBytes p = .ok bytes := by
  unfold isFile look at h
  cases hresolve : d.resolve p with
  | error slip =>
    rw [hresolve] at h
    cases slip <;> simp [Except.map] at h
  | ok way =>
    rw [hresolve] at h
    cases hat : d.root.at? way with
    | none => simp [hat, Except.map] at h
    | some e =>
      cases e with
      | folder children => simp [hat, Except.map, Entry.isFolder] at h
      | file bytes =>
        refine ⟨bytes, ?_⟩
        simp only [readBytes, hresolve, bind, Except.bind, hat]

end Files.Disk

namespace Settings

variable {reader : Yaml.Reader} {disk : Files.Disk} {config : Option Path} {file : Path}
  {bytes : ByteArray} {reading : Except Yaml.Refusal Yaml.Value} {fault : Fault}

/-- **The settings of a file that is there are those of what the reader makes of its bytes.** -/
theorem load_of_readBytes (hfile : disk.isFile file = .ok true)
    (hbytes : disk.readBytes file = .ok bytes) :
    load reader disk (some file) = ofReading file (reader bytes) := by
  simp only [load, hfile, hbytes]

/-- What goes wrong with a reading is a problem of the settings, or a slip: of the reader or of the
keys. -/
lemma fault_of_ofReading (h : ofReading file reading = .error fault) :
    (∃ problem, fault = .settings problem) ∨ ∃ slip, fault = .slip slip := by
  unfold ofReading at h
  split at h
  · exact .inl ⟨_, (Except.error.inj h).symm⟩
  · exact .inr ⟨_, (Except.error.inj h).symm⟩
  · split at h
    · cases h
    · exact .inl ⟨_, (Except.error.inj h).symm⟩
    · exact .inr ⟨_, (Except.error.inj h).symm⟩

/-- What goes wrong with settings is a problem of theirs, or a slip: of the disk, of the reader or
of the keys. -/
lemma fault_of_load (h : load reader disk config = .error fault) :
    (∃ problem, fault = .settings problem) ∨ ∃ slip, fault = .slip slip := by
  unfold load at h
  split at h
  · cases h
  · split at h
    · exact .inr ⟨_, (Except.error.inj h).symm⟩
    · exact .inl ⟨_, (Except.error.inj h).symm⟩
    · split at h
      · exact .inr ⟨_, (Except.error.inj h).symm⟩
      · exact fault_of_ofReading h

end Settings

end CrateGate
