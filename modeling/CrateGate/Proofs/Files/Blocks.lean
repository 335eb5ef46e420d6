import CrateGate.Files.Blocks
import Mathlib.Tactic.Lemma

/-!
# Blocks of a text that is broken

Bytes that are no UTF-8 are decoded as far as they can be, and then full blocks only are handed out.
What can be decoded has fewer characters than there are bytes, so from a file of two blocks at most
a reader gets one, and never all that it asks for first (`length_blocks_lt`).
-/

namespace CrateGate.Files

variable {n : Nat} {bytes : ByteArray} {s : String}

/-! ## Blocks -/

/-- Cutting loses nothing: the blocks one after another are the text. -/
lemma flatten_cut (size : Nat) (cs : List Char) : (cut size cs).flatten = cs := by
  fun_induction cut size cs with
  | case1 => rfl
  | case2 c rest ih =>
    rw [List.flatten_cons, ih, List.cons_append, List.take_append_drop]

/-- Of the blocks of a text only so many can be full as its characters fill. -/
lemma length_filter_cut_mul_le (size : Nat) (cs : List Char) :
    ((cut size cs).filter fun block => block.length = size).length * size ≤ cs.length := by
  have hfull (blocks : List (List Char)) :
      (blocks.filter fun block => block.length = size).length * size ≤ blocks.flatten.length := by
    induction blocks with
    | nil => simp
    | cons block blocks ih =>
      by_cases hblock : block.length = size
      · rw [List.filter_cons_of_pos (by simpa using hblock), List.length_cons, List.flatten_cons,
          List.length_append, hblock, Nat.succ_mul]
        omega
      · rw [List.filter_cons_of_neg (by simpa using hblock), List.flatten_cons,
          List.length_append]
        omega
  have h := hfull (cut size cs)
  rwa [flatten_cut] at h

/-- A text does not get longer when its line ends are made line feeds. -/
lemma length_universalNewlines_le (cs : List Char) :
    (Text.universalNewlines cs).length ≤ cs.length := by
  induction cs using Text.universalNewlines.induct with
  | case1 => simp [Text.universalNewlines]
  | case2 rest ih => simp only [Text.universalNewlines, List.length_cons]; omega
  | case3 c rest hno ih => simp only [Text.universalNewlines, List.length_cons]; omega

/-! ## Bytes -/

/-- A text has no more characters than bytes, as every character takes one byte at least. -/
lemma length_le_utf8ByteSize (s : String) : s.toList.length ≤ s.utf8ByteSize := by
  have hchars (cs : List Char) : cs.length ≤ (String.ofList cs).utf8ByteSize := by
    induction cs with
    | nil => simp
    | cons c cs ih =>
      have hpos := c.utf8Size_pos
      rw [String.ofList_cons, String.utf8ByteSize_append, String.utf8ByteSize_singleton,
        List.length_cons]
      omega
  have h := hchars s.toList
  rwa [String.ofList_toList] at h

/-- The text of bytes takes up all of them. -/
lemma utf8ByteSize_of_fromUTF8? (h : String.fromUTF8? bytes = some s) :
    s.utf8ByteSize = bytes.size := by
  unfold String.fromUTF8? at h
  split at h
  · rw [← Option.some.inj h]
    rfl
  · cases h

/-- Bytes that are no UTF-8 are decoded to fewer characters than they are. -/
lemma length_decodeSoFar?_lt (hno : String.fromUTF8? bytes = none)
    (h : decodeSoFar? bytes = some s) : s.toList.length < bytes.size := by
  obtain ⟨k, hk, hs⟩ := List.exists_of_findSome?_eq_some h
  split at hs
  · next hpartial =>
    have hlength := length_le_utf8ByteSize s
    rw [utf8ByteSize_of_fromUTF8? hs, ByteArray.size_extract] at hlength
    -- without a partial character at their end, the bytes would all be decoded
    have hpos : k ≠ 0 := by
      rintro rfl
      rw [Nat.sub_zero, ByteArray.extract_zero_size, hno] at hs
      cases hs
    simp only [Bool.and_eq_true, decide_eq_true_eq] at hpartial
    omega
  · cases hs

/-- Bytes of one chunk that are no UTF-8 are decoded to fewer characters than they are, however many
chunks are asked for. -/
lemma length_decodeChunks_lt (hno : String.fromUTF8? bytes = none)
    (hsize : bytes.size ≤ chunkSize) (n : Nat) :
    (decodeChunks bytes n).toList.length < bytes.size := by
  induction n with
  | zero =>
    rw [decodeChunks, String.toList_empty, List.length_nil, Nat.pos_iff_ne_zero]
    intro hempty
    rw [ByteArray.size_eq_zero_iff.mp hempty] at hno
    cases hno
  | succ n ih =>
    have hchunks : bytes.size ≤ chunkSize * (n + 1) :=
      Nat.le_trans hsize (Nat.le_mul_of_pos_right chunkSize n.succ_pos)
    have hall : bytes.extract 0 (chunkSize * (n + 1)) = bytes := by
      rw [← Nat.max_eq_left hchunks]
      exact ByteArray.extract_zero_max_size
    rw [decodeChunks, hall]
    cases hdecode : decodeSoFar? bytes with
    | none => exact ih
    | some s => exact length_decodeSoFar?_lt hno hdecode

/-- **Of bytes that are no UTF-8 and fit into one chunk no second block is handed out.** -/
theorem length_blocks_lt (hno : String.fromUTF8? bytes = none) (hsize : bytes.size ≤ chunkSize) :
    (Blocks.ofBytes bytes).blocks.length < 2 ∧ (Blocks.ofBytes bytes).broken = true := by
  unfold Blocks.ofBytes
  rw [hno]
  refine ⟨?_, rfl⟩
  simp only
  generalize hcs : (decodeChunks bytes (bytes.size / chunkSize + 1)).toList = cs
  have hlength : cs.length < bytes.size := hcs ▸ length_decodeChunks_lt hno hsize _
  have hheld : (if cs.getLast? = some '\r' then cs.dropLast else cs).length ≤ cs.length := by
    split
    · rw [List.length_dropLast]
      omega
    · exact Nat.le_refl _
  have hlines := length_universalNewlines_le (if cs.getLast? = some '\r' then cs.dropLast else cs)
  have hblocks := length_filter_cut_mul_le blockSize
    (Text.universalNewlines (if cs.getLast? = some '\r' then cs.dropLast else cs))
  -- two full blocks are as many characters as a chunk has bytes
  simp only [chunkSize, blockSize] at *
  omega

end CrateGate.Files
