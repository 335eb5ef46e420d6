import CrateGate.Proofs.Files.Blocks
import CrateGate.Proofs.Walk
import CrateGate.Proofs.Yaml.Compose
import CrateGate.Proofs.Yaml.Compute
import CrateGate.Proofs.Yaml.Scan
import CrateGate.Yaml.Read

/-!
# What a reader of YAML documents slips by

A reader decodes the bytes of a file block by block, and asks for two blocks before it looks at the
first of them. So a file that fits into one chunk and is no UTF-8 is never looked at
(`Reader.DecodesFirst`), which is so for the reader of this library (`decodesFirst_read`).

What else this reader slips by is a thing in the file itself (`Cause`): behind every slip there is
one (`cause_of_read`), and the slips are only a few (`Cause.mem`).
-/

namespace CrateGate.Yaml

variable {bytes : ByteArray} {slip : Slip}

/-! ## Decoding -/

/-- A reader decodes as much as one chunk of a file before it looks at any of it. So bytes of that
size that are no UTF-8 end in just that. -/
def Reader.DecodesFirst (reader : Reader) : Prop :=
  ∀ bytes : ByteArray, bytes.size ≤ Files.chunkSize → String.fromUTF8? bytes = none →
    reader bytes = .error (.unexpected .undecodable)

/-- The text of a file that breaks before its second block is no text but its break. -/
lemma streamOf_of_broken (hsize : bytes.size ≤ Files.chunkSize)
    (hno : String.fromUTF8? bytes = none) :
    streamOf bytes = ⟨[], some (.unexpected .undecodable)⟩ := by
  obtain ⟨hfew, hbroken⟩ := Files.length_blocks_lt hno hsize
  simp only [streamOf, hbroken, if_true, Stream.ofBlocks, opening, hfew, Option.isSome_some,
    decide_true, Bool.and_true]

/-- **The reader of this library decodes before it looks.** -/
theorem decodesFirst_read : Reader.DecodesFirst read := by
  intro bytes hsize hno
  unfold read
  rw [streamOf_of_broken hsize hno]
  rfl

/-! ## Causes -/

/-- A text handed out in blocks ends in a slip only if that is what the blocks end in: all that the
look at the first characters can add is that the text is malformed. -/
lemma fault_of_ofBlocks {blocks : List (List Char)} {fault : Option Problem}
    (h : (Stream.ofBlocks blocks fault).fault = some (.unexpected slip)) :
    fault = some (.unexpected slip) := by
  unfold Stream.ofBlocks at h
  simp only at h
  split at h
  · exact h
  · split at h
    · cases h
    · split at h
      · cases h
      · exact h

/-- The text of a file ends in a slip only if its bytes are no UTF-8. -/
lemma undecodable_of_fault (h : (streamOf bytes).fault = some (.unexpected slip)) :
    slip = .undecodable ∧ String.fromUTF8? bytes = none := by
  have hfault := fault_of_ofBlocks h
  cases hdecode : String.fromUTF8? bytes with
  | none =>
    split at hfault
    · cases hfault
      exact ⟨rfl, rfl⟩
    · cases hfault
  | some s => simp [Files.Blocks.ofBytes, hdecode] at hfault

/-- What the reader slips by: the bytes of the file are no UTF-8, its text holds a number or a code
that is too large, so much is opened in it that nodes may lie too deep, or one of its nodes has no
value. -/
inductive Cause (bytes : ByteArray) : Slip → Prop
  | undecodable (no : String.fromUTF8? bytes = none) : Cause bytes .undecodable
  | text {slip : Slip} (slips : TextSlip (streamOf bytes).chars slip) : Cause bytes slip
  | nesting (deep : Composing.depthLimit ≤ openers (tokensOf (streamOf bytes)).1) :
    Cause bytes .tooDeep
  | node {g : Graph} {n : Node} {slip : Slip} (reads : Graph.ofStream (streamOf bytes) = .ok g)
      (mem : n ∈ g.nodes) (slips : NodeSlip n slip) : Cause bytes slip

/-- **Behind every slip of the reader there is a cause in the file.** The tokens, the graph and the
values are read one after another, and the cause lies where the first of them slips. -/
theorem cause_of_read (h : read bytes = .error (.unexpected slip)) : Cause bytes slip := by
  unfold read at h
  cases hvalue : Value.ofStream settingsDepth (streamOf bytes) with
  | ok v =>
    rw [hvalue] at h
    cases h
  | error problem =>
    rw [hvalue] at h
    cases problem with
    | unexpected slip' =>
      cases h
      rcases bind_eq_error_iff.mp hvalue with hgraph | ⟨g, hgraph, hview⟩
      · rcases slip_of_graph hgraph with htokens | ⟨rfl, hdeep⟩
        · rcases textSlip_of_tokensOf htokens with hfault | htext
          · obtain ⟨rfl, hno⟩ := undecodable_of_fault hfault
            exact .undecodable hno
          · exact .text htext
        · exact .nesting hdeep
      · obtain ⟨n, hmem, hslip⟩ := nodeSlip_of_value hview
        exact .node hgraph hmem hslip
    | _ => cases h

/-- The slips that the reader has. -/
def slips : List Slip :=
  [.undecodable, .badValue, .badType, .badIndex, .badKey, .badAttribute, .tooLarge, .tooDeep]

/-- The slips that a scalar of any kind has are among those of the reader. -/
lemma mem_slips_of_kind (kind : Kind) : ∀ slip ∈ kind.slips, slip ∈ slips := by
  cases kind <;> decide

/-- A cause in a file is one of few slips, whatever the file holds. -/
theorem Cause.mem (h : Cause bytes slip) : slip ∈ slips := by
  cases h with
  | undecodable => simp [slips]
  | text htext =>
    have hmem := htext.mem
    simp only [List.mem_cons, List.not_mem_nil, or_false] at hmem
    rcases hmem with rfl | rfl <;> simp [slips]
  | nesting => simp [slips]
  | node reads mem hnode =>
    rcases hnode.mem with rfl | hmem
    · simp [slips]
    · exact mem_slips_of_kind _ _ hmem

end CrateGate.Yaml
