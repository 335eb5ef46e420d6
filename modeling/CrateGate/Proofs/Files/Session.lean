import CrateGate.Proofs.Files.Memory
import CrateGate.Proofs.Path
import Mathlib.Data.List.Induction
import Mathlib.Data.List.Sort

/-!
# Sessions with a tree in memory

In a session files are written, read and looked for, one operation after another, with paths given
as texts. Of all that has happened only the last texts count that were written to each path,
whichever spelling was used (`LastWritten`): a tree in memory is a map from paths to these
(`get?_after_iff`). So they decide every answer (`answers_of_history`), and an operation that fails
leaves no trace.

Whether a file lies below a root can be asked in two ways: what is left of its path after the root,
or whether the root is among its ancestors. Both come to the same (`Path.isUnder_iff`).
-/

namespace CrateGate

namespace Path

variable {root p : Path}

/-! ## Ancestors -/

/-- The directories that a path lies in, the nearest first. An absolute path lies in its root, and
not in the path of no parts. -/
def ancestors (p : Path) : List Path :=
  let depth := if p.isAbsolute then p.parts.length - 1 else p.parts.length
  (List.range depth).map fun i => ⟨p.parts.take (p.parts.length - (i + 1))⟩

/-- **The ancestors of a path are those from which a way leads down to it.** -/
lemma mem_ancestors : root ∈ p.ancestors ↔ ∃ way, way ≠ [] ∧ root.Below p way := by
  rw [ancestors, List.mem_map]
  simp only [List.mem_range]
  constructor
  · rintro ⟨i, hi, rfl⟩
    have hlength : i < p.parts.length := by
      split at hi <;> omega
    refine ⟨p.parts.drop (p.parts.length - (i + 1)), ?_, (List.take_append_drop _ _).symm, ?_⟩
    · intro hnil
      have := List.drop_eq_nil_iff.mp hnil
      omega
    · intro hroot
      have hzero : p.parts.length - (i + 1) = 0 := by
        rcases List.take_eq_nil_iff.mp hroot with h | h
        · exact h
        · simp [h]
      cases habsolute : p.isAbsolute with
      | false => rfl
      | true =>
        rw [habsolute, if_pos rfl] at hi
        omega
  · rintro ⟨way, hway, hparts, hrelative⟩
    have hpos : 0 < way.length := List.length_pos_iff.mpr hway
    have hlength : p.parts.length = root.parts.length + way.length := by
      rw [hparts, List.length_append]
    refine ⟨way.length - 1, ?_, ?_⟩
    · split
      · next habsolute =>
        have hroot : root.parts ≠ [] := by
          intro hnil
          rw [hrelative hnil] at habsolute
          cases habsolute
        have := List.length_pos_iff.mpr hroot
        omega
      · omega
    · have htake : p.parts.length - (way.length - 1 + 1) = root.parts.length := by omega
      rw [htake, hparts, List.take_left]

/-- A path is under a root if it is the root or has it as an ancestor. -/
lemma isUnder_iff : Files.Memory.isUnder root p = true ↔ p = root ∨ root ∈ p.ancestors := by
  rw [Files.Memory.isUnder, Option.isSome_iff_exists, mem_ancestors]
  simp only [below?_eq_some_iff]
  constructor
  · rintro ⟨way, hbelow⟩
    by_cases hway : way = []
    · subst hway
      exact .inl (Path.ext (by simpa using hbelow.1))
    · exact .inr ⟨way, hway, hbelow⟩
  · rintro (rfl | ⟨way, -, hbelow⟩)
    · refine ⟨[], (List.append_nil _).symm, ?_⟩
      intro hnil
      simp [isAbsolute, hnil]
    · exact ⟨way, hbelow⟩

end Path

namespace Files

/-! ## Sessions -/

/-- What can be asked of a tree in memory, with paths as texts. -/
inductive Operation
  | write (path text : String)
  | read (path : String)
  | find (root : String) (name : Text) (excluded : List Text)

/-- What a tree in memory answers if nothing is amiss. -/
inductive Answer
  | done
  | text (s : String)
  | paths (ps : List Path)
deriving DecidableEq

/-- An operation on a tree: the tree after it, and the answer. -/
def Operation.perform (m : Memory) : Operation → Memory × Except Slip Answer
  | write path text => (m.write (.ofString path) text, .ok .done)
  | read path => (m, (m.read (.ofString path)).map .text)
  | find root name excluded => (m, (m.find (.ofString root) name excluded).map .paths)

namespace Memory

/-- The tree after some operations. -/
def after (m : Memory) (ops : List Operation) : Memory :=
  ops.foldl (fun m op => (op.perform m).1) m

/-- The answers to some operations. -/
def answers (m : Memory) : List Operation → List (Except Slip Answer)
  | [] => []
  | op :: ops => (op.perform m).2 :: answers (op.perform m).1 ops

variable {m : Memory} {op : Operation} {past past' later ops : List Operation} {p root : Path}
  {s text : String} {name : Text} {excluded : List Text} {answer answer' : Except Slip Answer}

/-- A session that goes on after another one answers as it would from the files which that one left
behind. -/
lemma answers_append (m : Memory) (past later : List Operation) :
    m.answers (past ++ later) = m.answers past ++ (m.after past).answers later := by
  induction past generalizing m with
  | nil => rfl
  | cons op past ih =>
    rw [List.cons_append, answers, answers, ih]
    rfl

/-- Every operation gets one answer, be it that there is nothing to say. -/
lemma length_answers (m : Memory) (ops : List Operation) :
    (m.answers ops).length = ops.length := by
  induction ops generalizing m with
  | nil => rfl
  | cons op ops ih => rw [answers, List.length_cons, List.length_cons, ih]

end Memory

/-! ## What a session leaves behind -/

variable {m : Memory} {op : Operation} {past past' later ops : List Operation} {p root : Path}
  {s text : String} {name : Text} {excluded : List Text} {answer answer' : Except Slip Answer}

/-- An operation writes a text to a path. -/
def Operation.Writes (op : Operation) (p : Path) (text : String) : Prop :=
  ∃ s, op = .write s text ∧ Path.Spells s p

/-- A text was the last to be written to a path. -/
def LastWritten (past : List Operation) (p : Path) (text : String) : Prop :=
  ∃ earlier op since, past = earlier ++ op :: since ∧ op.Writes p text ∧
    ∀ other ∈ since, ∀ t, ¬other.Writes p t

/-- Something was written to a path. -/
def Stored (past : List Operation) (p : Path) : Prop :=
  ∃ text, LastWritten past p text

/-- Before anything is written no text was written last. -/
lemma not_lastWritten_nil : ¬LastWritten [] p text := by
  rintro ⟨earlier, op, since, heq, -⟩
  simp at heq

/-- With one operation more, the last text is the one it writes, or the one before. -/
lemma lastWritten_concat : LastWritten (past ++ [op]) p text ↔
    op.Writes p text ∨ ((∀ t, ¬op.Writes p t) ∧ LastWritten past p text) := by
  constructor
  · rintro ⟨earlier, first, since, heq, hwrites, hsince⟩
    rcases List.eq_nil_or_concat since with rfl | ⟨since, last, rfl⟩
    · obtain ⟨-, hop⟩ := List.append_inj' heq rfl
      obtain rfl := List.singleton_inj.mp hop
      exact .inl hwrites
    · rw [List.concat_eq_append, ← List.cons_append, ← List.append_assoc] at heq
      obtain ⟨hpast, hop⟩ := List.append_inj' heq rfl
      obtain rfl := List.singleton_inj.mp hop
      refine .inr ⟨hsince op (by simp), earlier, first, since, hpast, hwrites, ?_⟩
      intro other hother
      exact hsince other (by simp [hother])
  · rintro (hwrites | ⟨hop, earlier, first, since, rfl, hwrites, hsince⟩)
    · exact ⟨past, op, [], rfl, hwrites, by simp⟩
    · refine ⟨earlier, first, since ++ [op], by simp, hwrites, ?_⟩
      intro other hother
      rcases List.mem_append.mp hother with hother | hother
      · exact hsince other hother
      · rw [List.mem_singleton.mp hother]
        exact hop

/-- **One operation**: what it writes is there, and all else as before. -/
lemma get?_perform_iff : (op.perform m).1.get? p = some text ↔
    op.Writes p text ∨ ((∀ t, ¬op.Writes p t) ∧ m.get? p = some text) := by
  cases op with
  | write s t =>
    have hget : (m.write (.ofString s) t).get? p =
        if p = Path.ofString s then some t else m.get? p := SortedMap.get?_insert m _ p t
    have hwrites (t' : String) :
        (Operation.write s t).Writes p t' ↔ t = t' ∧ p = Path.ofString s := by
      constructor
      · rintro ⟨s', heq, hspells⟩
        obtain ⟨rfl, rfl⟩ := Operation.write.inj heq
        exact ⟨rfl, (Path.spells_iff.mp hspells).symm⟩
      · rintro ⟨rfl, rfl⟩
        exact ⟨s, rfl, Path.spells_iff.mpr rfl⟩
    simp only [Operation.perform, hget, hwrites]
    by_cases hp : p = Path.ofString s <;> simp [hp]
  | read s =>
    have hnone (t : String) : ¬(Operation.read s).Writes p t := by
      rintro ⟨s', heq, -⟩
      cases heq
    simp [Operation.perform, hnone]
  | find s name excluded =>
    have hnone (t : String) : ¬(Operation.find s name excluded).Writes p t := by
      rintro ⟨s', heq, -⟩
      cases heq
    simp [Operation.perform, hnone]

/-- **A session**: a path holds the text that was last written to it. -/
theorem get?_after_iff :
    (Memory.after SortedMap.empty past).get? p = some text ↔ LastWritten past p text := by
  induction past using List.reverseRecOn with
  | nil =>
    have hnone : (SortedMap.empty : Memory).get? p ≠ some text := by simp
    exact iff_of_false hnone not_lastWritten_nil
  | append_singleton past op ih =>
    rw [lastWritten_concat, Memory.after, List.foldl_append, ← ih]
    exact get?_perform_iff

/-- After some operations a path has no text if and only if it was never written. -/
lemma get?_after_eq_none_iff :
    (Memory.after SortedMap.empty past).get? p = none ↔ ¬Stored past p := by
  rw [Stored, not_exists, Option.eq_none_iff_forall_not_mem]
  exact forall_congr' fun text => not_congr get?_after_iff

/-! ## What a session decides -/

/-- A path was made a directory: nothing was written to it, and something below it. -/
structure MadeDirectory (past : List Operation) (root : Path) : Prop where
  notFile : ¬Stored past root
  inhabited : ∃ p, Stored past p ∧ root ∈ p.ancestors

/-- A file is looked for: it was written, it lies below the root and has the name, and no part of
its path between the two is excluded. -/
structure Sought (past : List Operation) (root : Path) (name : Text) (excluded : List Text)
    (p : Path) : Prop where
  stored : Stored past p
  below : root ∈ p.ancestors
  named : (p.name : Text) = name
  passable : ∀ part ∈ (p.parts.drop root.parts.length).dropLast, (part : Text) ∉ excluded

/-- What is to be answered after some operations, in terms of what was last written to each path. A
search finds the files that are looked for, in the order of their paths. -/
inductive Answered (past : List Operation) : Operation → Except Slip Answer → Prop
  | written (s text : String) : Answered past (.write s text) (.ok .done)
  | text {s text : String} {p : Path} (spelled : Path.Spells s p)
      (last : LastWritten past p text) : Answered past (.read s) (.ok (.text text))
  | noFile {s : String} {p : Path} (spelled : Path.Spells s p) (none : ¬Stored past p) :
      Answered past (.read s) (.error (.noFileAt p))
  | paths {s : String} {name : Text} {excluded : List Text} {root : Path} {ps : List Path}
      (spelled : Path.Spells s root) (directory : MadeDirectory past root)
      (ordered : ps.Pairwise fun p q => p.parts < q.parts)
      (mem_iff : ∀ p, p ∈ ps ↔ Sought past root name excluded p) :
      Answered past (.find s name excluded) (.ok (.paths ps))
  | noDirectory {s : String} {name : Text} {excluded : List Text} {root : Path}
      (spelled : Path.Spells s root) (none : ¬MadeDirectory past root) :
      Answered past (.find s name excluded) (.error (.noDirectoryAt root))

/-- A path was written at some time if and only if it has a text now, as nothing is ever taken
away. -/
lemma stored_iff : Stored past p ↔ ∃ text, (Memory.after SortedMap.empty past).get? p = some text :=
  exists_congr fun _ => get?_after_iff.symm

/-- What counts as a directory after some operations is told by what was written: something below
it, and no text of its own. -/
lemma isDirectory_after_iff :
    (Memory.after SortedMap.empty past).IsDirectory root ↔ MadeDirectory past root := by
  constructor
  · rintro ⟨hnotFile, p, text, way, hget, hbelow⟩
    have hroot := get?_after_eq_none_iff.mp hnotFile
    have hp : Stored past p := stored_iff.mpr ⟨text, hget⟩
    refine ⟨hroot, p, hp, Path.mem_ancestors.mpr ⟨way, ?_, hbelow⟩⟩
    rintro rfl
    obtain rfl : p = root := Path.ext (by simpa using hbelow.1)
    exact hroot hp
  · rintro ⟨hnotFile, p, hp, hmem⟩
    obtain ⟨text, hget⟩ := stored_iff.mp hp
    obtain ⟨way, -, hbelow⟩ := Path.mem_ancestors.mp hmem
    exact ⟨get?_after_eq_none_iff.mpr hnotFile, p, text, way, hget, hbelow⟩

/-- The files that are looked for are those that a search selects. -/
lemma sought_iff : Sought past root name excluded p ↔
    (∃ text, (Memory.after SortedMap.empty past).get? p = some text) ∧
      Selected root name excluded p := by
  rw [← stored_iff]
  constructor
  · rintro ⟨hstored, hmem, hname, hpassable⟩
    obtain ⟨way, hway, hbelow⟩ := Path.mem_ancestors.mp hmem
    obtain ⟨between, last, rfl⟩ := (List.eq_nil_or_concat way).resolve_left hway
    rw [List.concat_eq_append] at hbelow
    rw [hbelow.name_eq] at hname
    rw [hbelow.1, List.drop_left, List.dropLast_concat] at hpassable
    exact ⟨hstored, between, last, hbelow, hname, hpassable⟩
  · rintro ⟨hstored, between, last, hbelow, hname, hbetween⟩
    refine ⟨hstored, Path.mem_ancestors.mpr ⟨_, by simp, hbelow⟩, hbelow.name_eq ▸ hname, ?_⟩
    rw [hbelow.1, List.drop_left, List.dropLast_concat]
    exact hbetween

/-- What a tree answers after some operations is what they decide. -/
lemma answered_perform (past : List Operation) (op : Operation) :
    Answered past op (op.perform (Memory.after SortedMap.empty past)).2 := by
  cases op with
  | write s text => exact .written s text
  | read s =>
    have hspelled : Path.Spells s (.ofString s) := Path.spells_iff.mpr rfl
    simp only [Operation.perform, Memory.read]
    cases hget : (Memory.after SortedMap.empty past).get? (.ofString s) with
    | some text => exact .text hspelled (get?_after_iff.mp hget)
    | none => exact .noFile hspelled (get?_after_eq_none_iff.mp hget)
  | find s name excluded =>
    have hspelled : Path.Spells s (.ofString s) := Path.spells_iff.mpr rfl
    simp only [Operation.perform]
    by_cases hmade : MadeDirectory past (.ofString s)
    · have hdirectory := isDirectory_after_iff.mpr hmade
      rw [Memory.find_of_isDirectory hdirectory]
      refine .paths hspelled hmade (Memory.pairwise_selection _ _ _ _) ?_
      intro p
      rw [Memory.mem_map_selection hdirectory, sought_iff]
    · rw [Memory.find_of_not_isDirectory (mt isDirectory_after_iff.mp hmade)]
      exact .noDirectory hspelled hmade

/-- The operations of the past decide one answer only. -/
lemma Answered.unique (h : Answered past op answer) (h' : Answered past op answer') :
    answer = answer' := by
  have hspelled {s : String} {p q : Path} (hp : Path.Spells s p) (hq : Path.Spells s q) : p = q :=
    (Path.spells_iff.mp hp).symm.trans (Path.spells_iff.mp hq)
  cases h with
  | written s text =>
    cases h'
    rfl
  | text spelled last =>
    cases h' with
    | text spelled' last' =>
      obtain rfl := hspelled spelled spelled'
      have hget := get?_after_iff.mpr last
      rw [get?_after_iff.mpr last'] at hget
      rw [Option.some.inj hget]
    | noFile spelled' none =>
      obtain rfl := hspelled spelled spelled'
      exact absurd ⟨_, last⟩ none
  | noFile spelled none =>
    cases h' with
    | text spelled' last' =>
      obtain rfl := hspelled spelled spelled'
      exact absurd ⟨_, last'⟩ none
    | noFile spelled' none' => rw [hspelled spelled spelled']
  | @paths s name excluded root ps spelled directory ordered mem_iff =>
    cases h' with
    | paths spelled' directory' ordered' mem_iff' =>
      obtain rfl := hspelled spelled spelled'
      -- in the order of their paths, files are determined by which they are
      have hordered : ps.Pairwise (· < ·) := ordered
      rw [hordered.eq_of_mem_iff ordered' fun p => (mem_iff p).trans (mem_iff' p).symm]
    | noDirectory spelled' none =>
      obtain rfl := hspelled spelled spelled'
      exact absurd directory none
  | noDirectory spelled none =>
    cases h' with
    | paths spelled' directory' ordered' mem_iff' =>
      obtain rfl := hspelled spelled spelled'
      exact absurd directory' none
    | noDirectory spelled' none' => rw [hspelled spelled spelled']

/-- **The answers in a session are those that the operations before them decide**, each by what was
last written to the paths. Sessions that last wrote the same to every path go on with the same
answers. -/
theorem answers_of_history (past : List Operation) :
    (∀ op later answer,
      (Memory.answers SortedMap.empty (past ++ op :: later))[past.length]? = some answer ↔
        Answered past op answer) ∧
    ∀ past', (∀ p text, LastWritten past p text ↔ LastWritten past' p text) → ∀ later,
      (Memory.answers SortedMap.empty (past ++ later)).drop past.length =
        (Memory.answers SortedMap.empty (past' ++ later)).drop past'.length := by
  constructor
  · intro op later answer
    have hanswered := answered_perform past op
    rw [Memory.answers_append,
      List.getElem?_append_right (Nat.le_of_eq (Memory.length_answers _ _)),
      Memory.length_answers, Nat.sub_self, Memory.answers, List.getElem?_cons_zero,
      Option.some.injEq]
    constructor
    · rintro rfl
      exact hanswered
    · intro h
      exact hanswered.unique h
  · intro past' hsame later
    have htree : Memory.after SortedMap.empty past = Memory.after SortedMap.empty past' := by
      apply SortedMap.ext_get?
      intro p
      apply Option.ext
      intro text
      rw [get?_after_iff, get?_after_iff]
      exact hsame p text
    have hdrop (past : List Operation) :
        (Memory.answers SortedMap.empty (past ++ later)).drop past.length =
          (Memory.after SortedMap.empty past).answers later := by
      rw [Memory.answers_append]
      exact List.drop_left' (Memory.length_answers _ _)
    rw [hdrop, hdrop, htree]

/-- A file is written twice, each time by another spelling of its path, and what was looked up in
between was not there. -/
def wanderingSession : List Operation :=
  [.write "src/./lib.rs" "old", .read "src", .find "target" "lib.rs" [],
    .write "src//lib.rs/" "new", .write "//a/../Cargo.toml" "x"]

/-- The same files, written in another order. -/
def straightSession : List Operation :=
  [.write "//a//../Cargo.toml" "x", .write "src/lib.rs" "new"]

/-- Two sessions that spell the same paths in different ways and write them in different orders,
once over an older text, answer the same from then on. -/
theorem answers_wanderingSession :
    (∀ p text, LastWritten wanderingSession p text ↔ LastWritten straightSession p text) ∧
      (Memory.answers SortedMap.empty (wanderingSession ++
          [.read "./src/lib.rs", .find "/" "Cargo.toml" [], .find "//" "Cargo.toml" [".."]])).drop
            wanderingSession.length =
        (Memory.answers SortedMap.empty (straightSession ++
          [.read "./src/lib.rs", .find "/" "Cargo.toml" [], .find "//" "Cargo.toml" [".."]])).drop
            straightSession.length ∧
      (Memory.answers SortedMap.empty (wanderingSession ++ [.read "./src/lib.rs"]))[5]? =
        some (.ok (.text "new")) := by
  have htree : (Memory.after SortedMap.empty wanderingSession).toList =
      (Memory.after SortedMap.empty straightSession).toList := by
    decide +kernel
  have hsame (p : Path) (text : String) :
      LastWritten wanderingSession p text ↔ LastWritten straightSession p text := by
    rw [← get?_after_iff, ← get?_after_iff, SortedMap.get?, SortedMap.get?, htree]
  refine ⟨hsame, (answers_of_history wanderingSession).2 straightSession hsame _, ?_⟩
  refine ((answers_of_history wanderingSession).1 (.read "./src/lib.rs") [] _).mpr ?_
  refine .text (Path.spells_iff.mpr rfl) (get?_after_iff.mp ?_)
  decide +kernel

end Files

end CrateGate
