import CrateGate.Text.Blank
import Mathlib.Tactic.Lemma

/-!
# Line ends

Where every carriage return stands in front of a line feed, it makes no difference whether line ends
are joined at once, or every carriage return is taken for a line end before that
(`joinLineEnds_universalNewlines`).
-/

namespace CrateGate.Text

variable {c : Char} {cs : List Char}

/-- Every carriage return is immediately followed by a line feed. -/
def ReturnsEndLines (cs : List Char) : Prop :=
  ∀ before after, cs = before ++ '\r' :: after → ∃ rest, after = '\n' :: rest

/-- Where every carriage return stands before a line feed, it does so behind the first character
too. -/
lemma ReturnsEndLines.tail (h : ReturnsEndLines (c :: cs)) : ReturnsEndLines cs :=
  fun before after heq => h (c :: before) after (congrArg (c :: ·) heq)

/-- Where no carriage return stands alone, treating the single ones as line ends makes no
difference. -/
lemma universalNewlines_eq (h : ReturnsEndLines cs) : universalNewlines cs = joinLineEnds cs := by
  fun_induction joinLineEnds cs with
  | case1 => rfl
  | case2 rest ih => rw [universalNewlines, ih h.tail.tail]
  | case3 c rest hne ih =>
    have hc : c ≠ '\r' := by
      rintro rfl
      obtain ⟨after, rfl⟩ := h [] rest rfl
      exact hne after rfl rfl
    rw [universalNewlines, if_neg hc, ih h.tail]
    exact hne

/-- No carriage return is left: each has become a line feed, or went with the one after it. -/
lemma return_notMem_universalNewlines (cs : List Char) : '\r' ∉ universalNewlines cs := by
  fun_induction universalNewlines cs with
  | case1 => exact List.not_mem_nil
  | case2 rest ih =>
    rw [List.mem_cons, not_or]
    exact ⟨by decide, ih⟩
  | case3 c rest hne ih =>
    rw [List.mem_cons, not_or]
    refine ⟨?_, ih⟩
    split
    · decide
    · next hc => exact Ne.symm hc

/-- Without a carriage return there is no line end of two characters to be joined. -/
lemma joinLineEnds_of_notMem (h : '\r' ∉ cs) : joinLineEnds cs = cs := by
  fun_induction joinLineEnds cs with
  | case1 => rfl
  | case2 rest ih => exact absurd List.mem_cons_self h
  | case3 c rest hne ih => rw [ih (List.not_mem_of_not_mem_cons h)]

/-- Carriage returns all end lines if none is left when line ends are joined. -/
lemma returnsEndLines_iff : ReturnsEndLines cs ↔ '\r' ∉ joinLineEnds cs := by
  constructor
  · intro h
    rw [← universalNewlines_eq h]
    exact return_notMem_universalNewlines cs
  · intro h before after heq
    fun_induction joinLineEnds cs generalizing before with
    | case1 => exact absurd heq.symm (List.append_ne_nil_of_right_ne_nil _ (List.cons_ne_nil _ _))
    | case2 rest ih =>
      match before with
      | [] =>
        exact ⟨rest, (List.cons.inj heq).2.symm⟩
      | [c] => cases (List.cons.inj (List.cons.inj heq).2).1
      | c :: c' :: before =>
        exact ih (List.not_mem_of_not_mem_cons h) before (List.cons.inj (List.cons.inj heq).2).2
    | case3 c rest hne ih =>
      match before with
      | [] => exact absurd (List.cons.inj heq).1.symm (List.ne_of_not_mem_cons h)
      | c' :: before =>
        exact ih (List.not_mem_of_not_mem_cons h) before (List.cons.inj heq).2

instance : DecidablePred ReturnsEndLines :=
  fun _ => decidable_of_iff _ returnsEndLines_iff.symm

/-- Joining line ends after every carriage return was taken for one comes to joining them. -/
lemma joinLineEnds_universalNewlines (h : ReturnsEndLines cs) :
    joinLineEnds (universalNewlines cs) = joinLineEnds cs := by
  rw [joinLineEnds_of_notMem (return_notMem_universalNewlines cs), universalNewlines_eq h]

end CrateGate.Text
