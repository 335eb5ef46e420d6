import CrateGate.Proofs.Settings.Document
import CrateGate.Proofs.Yaml.Read

/-!
# Settings that are not explained

Loading settings is explained if it ends in settings, or in a problem with them (`Explained`). It is
not explained for some files, and it can be told which, for every reader of YAML documents
(`Unexplained`): something other than a malformed document stops the reader, or the document that it
reads has a key that is no text. Every other file is explained (`load_explained`).

So a reader that decodes before it looks leaves a file unexplained that is no UTF-8
(`unexplained_of_undecodable`). With the reader of this library a file slips only by a cause in it
or by a key (`explained_of_read`).
-/

namespace CrateGate.Settings

open Yaml (Value)

variable {reader : Yaml.Reader} {disk : Files.Disk} {file : Path} {bytes : ByteArray} {slip : Slip}
  {pairs : List (Value × Value)}

/-- Loading settings is explained if it ends in settings, or in a problem with them. -/
def Explained (outcome : Except Fault Settings) : Prop :=
  (∃ settings, outcome = .ok settings) ∨ ∃ problem, outcome = .error (.settings problem)

/-- Why loading settings is not explained: the reader has no value for the bytes and does not say
that they are malformed, or it has a mapping for them in which a key is no text. -/
inductive Unexplained (reader : Yaml.Reader) (bytes : ByteArray) : Slip → Prop
  | reading {slip : Slip} (slips : reader bytes = .error (.unexpected slip)) :
    Unexplained reader bytes slip
  | key {pairs : List (Value × Value)} (reads : reader bytes = .ok (.mapping pairs))
      (other : ¬TextKeys pairs) : Unexplained reader bytes .badType

/-- A reason for a slip is one: there is nothing that catches it. -/
lemma slip_of_unexplained (h : Unexplained reader bytes slip) (file : Path) :
    ofReading file (reader bytes) = .error (.slip slip) := by
  cases h with
  | reading slips =>
    rw [slips]
    rfl
  | key reads other =>
    rw [reads]
    simp only [ofReading, ofValue, ofPairs, checkKeys_of_no_text other]
    rfl

/-- A document slips only by a key that is no text. -/
lemma not_textKeys_of_slip {v : Value} (h : ofValue v = .error (.inr slip)) :
    slip = .badType ∧ ∃ pairs, v = .mapping pairs ∧ ¬TextKeys pairs := by
  rcases Classical.em (∀ pairs, v = .mapping pairs → TextKeys pairs) with htexts | hno
  · rcases describes_or_firstFlaw htexts with ⟨settings, hdescribes⟩ | ⟨flaw, hflaw⟩
    · rw [ofValue_of_describes hdescribes] at h
      cases h
    · rw [ofValue_of_firstFlaw htexts hflaw] at h
      cases h
  · simp only [not_forall] at hno
    obtain ⟨pairs, rfl, hno⟩ := hno
    rw [ofValue, ofPairs, checkKeys_of_no_text hno] at h
    cases h
    exact ⟨rfl, pairs, rfl, hno⟩

/-- There is a reason for every slip: it is that of the reader, or of the keys that it has read. -/
lemma unexplained_of_slip (h : ofReading file (reader bytes) = .error (.slip slip)) :
    Unexplained reader bytes slip := by
  cases hreads : reader bytes with
  | error refusal =>
    rw [hreads] at h
    cases refusal with
    | malformed reason => cases h
    | unexpected other =>
      cases h
      exact .reading hreads
  | ok v =>
    rw [hreads] at h
    cases hvalue : ofValue v with
    | ok settings =>
      simp only [ofReading, hvalue] at h
      cases h
    | error fault =>
      simp only [ofReading, hvalue] at h
      cases fault with
      | inl flaw => cases h
      | inr other =>
        cases h
        obtain ⟨rfl, pairs, rfl, hno⟩ := not_textKeys_of_slip hvalue
        exact .key hreads hno

/-- A reader that decodes before it looks leaves bytes unexplained that are no UTF-8, if they are no
more than it decodes at once. -/
lemma unexplained_of_undecodable (hreader : reader.DecodesFirst)
    (hsize : bytes.size ≤ Files.chunkSize) (hno : String.fromUTF8? bytes = none) :
    Unexplained reader bytes .undecodable :=
  .reading (hreader bytes hsize hno)

/-- **Which settings files are explained.** With any reader, loading the settings of a file that is
there ends in settings, or in a problem with them, unless there is a reason for a slip; and it ends
in each slip that there is a reason for. -/
theorem load_explained (reader : Yaml.Reader) (hfile : disk.isFile file = .ok true) :
    ∃ bytes, disk.readBytes file = .ok bytes ∧
      (Explained (load reader disk (some file)) ↔ ¬∃ slip, Unexplained reader bytes slip) ∧
      ∀ slip, load reader disk (some file) = .error (.slip slip) ↔
        Unexplained reader bytes slip := by
  obtain ⟨bytes, hbytes⟩ := Files.Disk.exists_readBytes hfile
  have hload : load reader disk (some file) = ofReading file (reader bytes) :=
    load_of_readBytes hfile hbytes
  have hslip : ∀ slip, load reader disk (some file) = .error (.slip slip) ↔
      Unexplained reader bytes slip := by
    intro slip
    rw [hload]
    exact ⟨unexplained_of_slip, fun h => slip_of_unexplained h file⟩
  refine ⟨bytes, hbytes, ⟨?_, ?_⟩, hslip⟩
  · rintro hexplained ⟨slip, hunexplained⟩
    rw [(hslip slip).mpr hunexplained] at hexplained
    rcases hexplained with ⟨settings, h⟩ | ⟨problem, h⟩ <;> cases h
  · intro hnone
    cases houtcome : load reader disk (some file) with
    | ok settings => exact .inl ⟨settings, rfl⟩
    | error fault =>
      rcases fault_of_load houtcome with ⟨problem, rfl⟩ | ⟨slip, rfl⟩
      · exact .inr ⟨problem, rfl⟩
      · exact absurd ⟨slip, (hslip slip).mp houtcome⟩ hnone

/-- **A file without a cause is explained.** With the reader of this library, loading the settings
of a file slips by a thing in the file, or by a key that is no text. -/
theorem explained_of_read (hfile : disk.isFile file = .ok true)
    (hbytes : disk.readBytes file = .ok bytes) (hcause : ¬∃ slip, Yaml.Cause bytes slip)
    (htexts : ∀ pairs, Yaml.read bytes = .ok (.mapping pairs) → TextKeys pairs) :
    Explained (load Yaml.read disk (some file)) := by
  obtain ⟨bytes', hbytes', hexplained, -⟩ := load_explained Yaml.read hfile
  obtain rfl := Except.ok.inj (hbytes'.symm.trans hbytes)
  refine hexplained.mpr ?_
  rintro ⟨slip, hslip⟩
  cases hslip with
  | reading slips => exact hcause ⟨slip, Yaml.cause_of_read slips⟩
  | key reads other => exact other (htexts _ reads)

/-! ## Files that are not explained -/

/-- A disk with settings files that slip: one that is no text, one with a day that is in no
calendar, and one with a key that is a number. -/
def slippery : Files.Disk where
  root := .folder [
    ("gate.yaml", .file ⟨#[0xFF]⟩),
    ("day.yaml", .file "log_level: 2001-02-30\n".toUTF8),
    ("key.yaml", .file "1: x\n".toUTF8)]
  standing := []

/-- Not every settings file is explained: the one that is no text is not, with the reader of this
library or with any other that decodes before it looks. -/
theorem not_explained_undecodable :
    slippery.isFile ⟨["gate.yaml"]⟩ = .ok true ∧
      ¬Explained (load Yaml.read slippery (some ⟨["gate.yaml"]⟩)) ∧
      ∀ reader : Yaml.Reader, reader.DecodesFirst →
        ¬Explained (load reader slippery (some ⟨["gate.yaml"]⟩)) := by
  have hfile : slippery.isFile ⟨["gate.yaml"]⟩ = .ok true := by decide +kernel
  have hbytes : slippery.readBytes ⟨["gate.yaml"]⟩ = .ok ⟨#[0xFF]⟩ := rfl
  have hall (reader : Yaml.Reader) (hreader : reader.DecodesFirst) :
      ¬Explained (load reader slippery (some ⟨["gate.yaml"]⟩)) := by
    obtain ⟨bytes, hbytes', hexplained, -⟩ := load_explained reader hfile
    obtain rfl := Except.ok.inj (hbytes'.symm.trans hbytes)
    rw [hexplained, not_not]
    exact ⟨_, unexplained_of_undecodable hreader (by decide) (by decide +kernel)⟩
  exact ⟨hfile, hall Yaml.read Yaml.decodesFirst_read, hall⟩

-- the thirtieth of February is a moment to the reader, and then no day
example : load Yaml.read slippery (some ⟨["day.yaml"]⟩) = .error (.slip .badValue) := by
  decide +kernel

end CrateGate.Settings
