import CrateGate.Path
import CrateGate.Proofs.Text.Split

/-!
# Spellings of paths

Many texts write one path. A spelling is some slashes, and then pieces with one slash between each
two of them. Empty pieces and dots do not count, and of the slashes it matters only whether there
are none, exactly two, or any other number. Every text is a spelling of exactly one path, which is
the one that it is read as (`spells_iff`). The text of a path that has been read is a spelling of it
(`Spells.render`), so reading what was read once more changes nothing.
-/

namespace CrateGate

namespace Text

variable {α : Type} [DecidableEq α] {separator : α} {cs : List α}

/-- No part of a text that is split holds the separator. -/
lemma notMem_of_mem_splitOn {part : List α} (h : part ∈ splitOn separator cs) :
    separator ∉ part := by
  induction cs generalizing part with
  | nil =>
    rw [splitOn, List.mem_singleton] at h
    simp [h]
  | cons c rest ih =>
    rw [splitOn] at h
    split at h
    · rcases List.mem_cons.mp h with rfl | h
      · simp
      · exact ih h
    · next hc =>
      split at h
      · next hnil => exact absurd hnil (splitOn_ne_nil separator rest)
      · next first parts hsplit =>
        rw [hsplit] at ih
        rcases List.mem_cons.mp h with rfl | h
        · intro hmem
          rcases List.mem_cons.mp hmem with heq | hmem
          · exact hc heq.symm
          · exact ih List.mem_cons_self hmem
        · exact ih (List.mem_cons_of_mem _ h)

/-- Separators before a text are as many empty parts. -/
lemma splitOn_replicate (n : Nat) (cs : List α) :
    splitOn separator (List.replicate n separator ++ cs) =
      List.replicate n [] ++ splitOn separator cs := by
  induction n with
  | zero => rfl
  | succ n ih => simp [List.replicate_succ, splitOn, ih]

/-- Joining texts with a separator of one character is joining their characters. -/
lemma toList_intercalate_ofList (c : Char) (parts : List (List Char)) :
    ((String.singleton c).intercalate (parts.map String.ofList)).toList = joinWith [c] parts := by
  rw [String.toList_intercalate, List.map_map]
  have hid : String.toList ∘ String.ofList = id := by
    funext cs
    exact String.toList_ofList
  rw [hid, List.map_id, String.toList_singleton]
  induction parts with
  | nil => rfl
  | cons part parts ih =>
    cases parts with
    | nil => simp [joinWith]
    | cons next parts => rw [List.intercalate_cons_cons, ih, joinWith]

end Text

namespace Path

/-! ## Spellings -/

/-- Whether a piece between slashes counts: it is neither empty nor a dot. -/
def counts (piece : List Char) : Bool :=
  piece ≠ [] ∧ piece ≠ ['.']

/-- A way to write a path. -/
structure Spelling where
  /-- How many slashes come first. -/
  slashes : Nat
  /-- What stands between the slashes after them. -/
  pieces : List (List Char)
  /-- No slash is part of a piece. -/
  slash_notMem : ∀ piece ∈ pieces, '/' ∉ piece
  /-- All slashes at the start are among the first. -/
  head?_ne : pieces.head? ≠ some []

namespace Spelling

/-- The characters of a spelling. -/
def chars (w : Spelling) : List Char :=
  List.replicate w.slashes '/' ++ Text.joinWith ['/'] w.pieces

/-- The path that is spelled. -/
def path (w : Spelling) : Path :=
  ⟨rootParts w.slashes ++ (w.pieces.filter counts).map String.ofList⟩

/-- After the first slashes comes none. -/
lemma takeWhile_joinWith (w : Spelling) :
    (Text.joinWith ['/'] w.pieces).takeWhile (· = '/') = [] := by
  obtain ⟨slashes, pieces, hslash, hhead⟩ := w
  cases pieces with
  | nil => rfl
  | cons piece pieces =>
    cases piece with
    | nil => exact absurd rfl hhead
    | cons c piece =>
      have hc : c ≠ '/' := Ne.symm (List.ne_of_not_mem_cons (hslash _ List.mem_cons_self))
      cases pieces <;> simp [Text.joinWith, hc]

/-- The slashes that a spelling starts with are just those it says: the next piece is not one of
them. -/
lemma takeWhile_chars (w : Spelling) :
    w.chars.takeWhile (· = '/') = List.replicate w.slashes '/' := by
  rw [chars, List.takeWhile_append_of_pos, takeWhile_joinWith, List.append_nil]
  intro c hc
  simp [List.eq_of_mem_replicate hc]

/-- Cutting a spelling at its slashes gives its pieces and empty parts between; as empty parts do
not count, the same pieces are left. -/
lemma filter_splitOn_chars (w : Spelling) :
    (Text.splitOn '/' w.chars).filter counts = w.pieces.filter counts := by
  have hempty : (List.replicate w.slashes []).filter counts = [] := by
    apply List.filter_eq_nil_iff.mpr
    intro piece hpiece
    simp [counts, List.eq_of_mem_replicate hpiece]
  rw [chars, Text.splitOn_replicate, List.filter_append, hempty, List.nil_append]
  by_cases hnil : w.pieces = []
  · rw [hnil]
    rfl
  · rw [Text.splitOn_joinWith hnil w.slash_notMem]

/-- **A text is read as the path that it spells.** -/
theorem ofChars_chars (w : Spelling) : ofChars w.chars = w.path := by
  have hfilter := w.filter_splitOn_chars
  unfold counts at hfilter
  unfold ofChars path counts
  rw [hfilter, takeWhile_chars, List.length_replicate]

end Spelling

/-- Every text is a spelling. -/
lemma exists_spelling (cs : List Char) : ∃ w : Spelling, w.chars = cs := by
  let start := cs.takeWhile (· = '/')
  have hstart : start = List.replicate start.length '/' := by
    apply List.eq_replicate_of_mem
    intro c hc
    have hall : start.all (· = '/') = true := List.all_takeWhile
    simpa using List.all_eq_true.mp hall c hc
  have hsplit : start ++ cs.dropWhile (· = '/') = cs := List.takeWhile_append_dropWhile
  cases hrest : cs.dropWhile (· = '/') with
  | nil =>
    refine ⟨⟨start.length, [], by simp, by simp⟩, ?_⟩
    rw [hrest, List.append_nil] at hsplit
    rw [Spelling.chars, ← hstart, ← hsplit]
    exact List.append_nil _
  | cons c rest =>
    have hc : c ≠ '/' := by
      intro heq
      have hhead := List.head?_dropWhile_not (· = '/') cs
      simp [hrest, heq] at hhead
    refine ⟨⟨start.length, Text.splitOn '/' (c :: rest),
      fun piece hpiece => Text.notMem_of_mem_splitOn hpiece, ?_⟩, ?_⟩
    · rw [Text.splitOn, if_neg hc]
      split <;> simp
    · rw [Spelling.chars, Text.joinWith_splitOn, ← hstart, ← hrest]
      exact hsplit

/-- A text spells a path. -/
def Spells (s : String) (p : Path) : Prop :=
  ∃ w : Spelling, w.chars = s.toList ∧ w.path = p

/-- **Every text spells exactly one path: the one that it is read as.** -/
theorem spells_iff {s : String} {p : Path} : Spells s p ↔ ofString s = p := by
  constructor
  · rintro ⟨w, hchars, rfl⟩
    rw [ofString, ← hchars, w.ofChars_chars]
  · rintro rfl
    obtain ⟨w, hchars⟩ := exists_spelling s.toList
    refine ⟨w, hchars, ?_⟩
    rw [ofString, ← hchars, w.ofChars_chars]

/-! ## The text of a path -/

/-- A part without a slash is no root. -/
lemma isRoot_eq_false {name : String} (h : '/' ∉ name.toList) : isRoot name = false := by
  rw [Bool.eq_false_iff]
  intro hroot
  simp only [isRoot, Bool.or_eq_true, decide_eq_true_eq] at hroot
  rcases hroot with rfl | rfl <;> exact absurd h (by decide)

namespace Spelling

/-- The spelling without what does not count. -/
def trimmed (w : Spelling) : Spelling where
  slashes := if w.slashes = 0 then 0 else if w.slashes = 2 then 2 else 1
  pieces := w.pieces.filter counts
  slash_notMem := fun piece hpiece => w.slash_notMem piece (List.mem_filter.mp hpiece).1
  head?_ne := by
    intro hhead
    have hmem := List.mem_filter.mp (List.mem_of_mem_head? hhead)
    simp [counts] at hmem

/-- Pieces that do not count, empty ones and single dots, can be left out of a spelling without a
change of the path. -/
lemma path_trimmed (w : Spelling) : w.trimmed.path = w.path := by
  have hroot : rootParts w.trimmed.slashes = rootParts w.slashes := by
    unfold trimmed rootParts
    by_cases h0 : w.slashes = 0
    · simp [h0]
    · by_cases h2 : w.slashes = 2 <;> simp [h0, h2]
  rw [path, path, hroot]
  simp [trimmed]

/-- The text of the path is the trimmed spelling, unless nothing is left of that. -/
lemma render_path (w : Spelling) (hne : w.path ≠ here) :
    w.path.render.toList = w.trimmed.chars := by
  have hjoin : ("/".intercalate ((w.pieces.filter counts).map String.ofList)).toList =
      Text.joinWith ['/'] (w.pieces.filter counts) := Text.toList_intercalate_ofList '/' _
  by_cases h0 : w.slashes = 0
  · have hparts : w.path.parts = (w.pieces.filter counts).map String.ofList := by
      simp [path, rootParts, h0]
    have hchars : w.trimmed.chars = Text.joinWith ['/'] (w.pieces.filter counts) := by
      simp [chars, trimmed, h0]
    rw [hchars, ← hjoin, render, hparts]
    cases hpieces : w.pieces.filter counts with
    | nil =>
      rw [hpieces] at hparts
      exact absurd (Path.ext hparts) hne
    | cons piece pieces =>
      have hpiece : '/' ∉ (String.ofList piece).toList := by
        rw [String.toList_ofList]
        apply w.slash_notMem
        exact (List.mem_filter.mp (hpieces ▸ List.mem_cons_self)).1
      simp [isRoot_eq_false hpiece]
  · -- an absolute path starts at one of two roots
    obtain ⟨root, hparts, hroot, hslashes⟩ : ∃ root, rootParts w.slashes = [root] ∧
        isRoot root = true ∧ root.toList = List.replicate w.trimmed.slashes '/' := by
      by_cases h2 : w.slashes = 2
      · exact ⟨"//", by simp [rootParts, h2], by decide, by simp [trimmed, h2]⟩
      · exact ⟨"/", by simp [rootParts, h0, h2], by decide, by simp [trimmed, h0, h2]⟩
    rw [render, path, hparts]
    simp only [List.cons_append, List.nil_append, hroot, if_true, String.toList_append, hslashes,
      hjoin, chars]
    rfl

end Spelling

/-- **The text of a path that has been read spells that path.** -/
theorem Spells.render {s : String} {p : Path} (h : Spells s p) : Spells p.render p := by
  obtain ⟨w, -, rfl⟩ := h
  by_cases hhere : w.path = here
  · rw [hhere]
    exact spells_iff.mpr (by decide)
  · exact ⟨w.trimmed, (w.render_path hhere).symm, w.path_trimmed⟩

end Path

end CrateGate
