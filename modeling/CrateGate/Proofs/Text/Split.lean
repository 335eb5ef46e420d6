import CrateGate.Text.Blank
import Mathlib.Tactic.Lemma

/-!
# Splitting undoes joining

Parts that do not hold the separator come back as they were (`splitOn_joinWith`), so the joined text
determines them.
-/

namespace CrateGate.Text

variable {α : Type} {separator c : α} {cs before after : List α}
  {parts : List (List α)}

/-- Joined parts are the first one, the separator, and the joined rest. -/
lemma joinWith_cons_cons (part next : List α) (parts : List (List α)) :
    joinWith [separator] (part :: next :: parts) =
      part ++ separator :: joinWith [separator] (next :: parts) := by
  simp [joinWith]

section Splitting

variable [DecidableEq α]

/-- A text without the separator is one part. -/
lemma splitOn_of_notMem (h : separator ∉ cs) : splitOn separator cs = [cs] := by
  induction cs with
  | nil => rfl
  | cons c rest ih =>
    have hc : c ≠ separator := Ne.symm (List.ne_of_not_mem_cons h)
    rw [splitOn, if_neg hc, ih (List.not_mem_of_not_mem_cons h)]

/-- The first part ends at the first separator. -/
lemma splitOn_append (h : separator ∉ before) :
    splitOn separator (before ++ separator :: after) = before :: splitOn separator after := by
  induction before with
  | nil => simp [splitOn]
  | cons c rest ih =>
    have hc : c ≠ separator := Ne.symm (List.ne_of_not_mem_cons h)
    rw [List.cons_append, splitOn, if_neg hc, ih (List.not_mem_of_not_mem_cons h)]

/-- **Parts without the separator come back as they were.** -/
theorem splitOn_joinWith (hne : parts ≠ []) (h : ∀ part ∈ parts, separator ∉ part) :
    splitOn separator (joinWith [separator] parts) = parts := by
  induction parts with
  | nil => exact absurd rfl hne
  | cons part parts ih =>
    obtain ⟨hpart, hparts⟩ := List.forall_mem_cons.mp h
    cases parts with
    | nil => exact splitOn_of_notMem hpart
    | cons next parts =>
      rw [joinWith_cons_cons, splitOn_append hpart, ih (List.cons_ne_nil _ _) hparts]

end Splitting

/-- What stands in a part stands in the joined text. -/
lemma subset_joinWith {part : List α} (h : part ∈ parts) :
    part ⊆ joinWith [separator] parts := by
  induction parts with
  | nil => cases h
  | cons first parts ih =>
    cases parts with
    | nil =>
      rw [List.mem_singleton.mp h]
      exact List.Subset.refl _
    | cons next parts =>
      rw [joinWith_cons_cons]
      rcases List.mem_cons.mp h with rfl | h
      · exact List.subset_append_left _ _
      · intro c hc
        exact List.mem_append_right _ (List.mem_cons_of_mem _ (ih h hc))

/-- What stands in a joined text stands in a part, or is the separator. -/
lemma mem_joinWith (h : c ∈ joinWith [separator] parts) :
    c = separator ∨ ∃ part ∈ parts, c ∈ part := by
  induction parts with
  | nil => cases h
  | cons part parts ih =>
    cases parts with
    | nil => exact .inr ⟨part, List.mem_cons_self, h⟩
    | cons next parts =>
      rw [joinWith_cons_cons, List.mem_append, List.mem_cons] at h
      rcases h with h | h | h
      · exact .inr ⟨part, List.mem_cons_self, h⟩
      · exact .inl h
      · rcases ih h with h | ⟨other, hother, h⟩
        · exact .inl h
        · exact .inr ⟨other, List.mem_cons_of_mem _ hother, h⟩

end CrateGate.Text
