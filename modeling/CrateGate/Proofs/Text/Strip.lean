import CrateGate.Text.Blank
import Mathlib.Tactic.Lemma

/-!
# Texts without white space at their ends

What is left of a text without the white space at its ends is the part of it that has white space on
both sides, and none at its own ends (`trims_iff`). A half of a surrogate pair is no white space, so
it ends what is taken away as any other letter does.
-/

namespace CrateGate.Text

variable {t kept : Text}

/-- A text is all of another but the white space at its ends: there is nothing but white space
before and after it there, and it neither starts nor ends with any. -/
structure Trims (t kept : Text) : Prop where
  between : ∃ before after, t.letters = before ++ kept.letters ++ after ∧
    (∀ a ∈ before, isBlankLetter a = true) ∧ ∀ a ∈ after, isBlankLetter a = true
  head : ∀ a, kept.letters.head? = some a → isBlankLetter a = false
  last : ∀ a, kept.letters.getLast? = some a → isBlankLetter a = false

/-- White space before letters that do not start with any is what is skipped, no more and no
less. -/
lemma dropWhile_isBlankLetter_append {before rest : List Letter}
    (hbefore : ∀ a ∈ before, isBlankLetter a = true)
    (hrest : ∀ a, rest.head? = some a → isBlankLetter a = false) :
    (before ++ rest).dropWhile isBlankLetter = rest := by
  rw [List.dropWhile_append_of_pos hbefore]
  cases rest with
  | nil => rfl
  | cons a rest => simp [hrest a rfl]

/-- What is left after the white space at the start was skipped does not start with any. -/
lemma head?_dropWhile_isBlankLetter (letters : List Letter) (a : Letter)
    (h : (letters.dropWhile isBlankLetter).head? = some a) : isBlankLetter a = false := by
  have hnot := List.head?_dropWhile_not isBlankLetter letters
  rw [h] at hnot
  simpa using hnot

/-- The part between the white space at both ends is what skipping from the left and then from the
right leaves. If that part is empty, the first of the two skips everything. -/
lemma Trims.stripped_eq (h : Trims t kept) : t.stripped = kept := by
  obtain ⟨⟨before, after, hsplit, hbefore, hafter⟩, hhead, hlast⟩ := h
  obtain ⟨kept⟩ := kept
  have hafter' : ∀ a ∈ after.reverse, isBlankLetter a = true := by
    intro a ha
    exact hafter a (List.mem_reverse.mp ha)
  have hlast' : ∀ a, kept.reverse.head? = some a → isBlankLetter a = false := by
    intro a ha
    rw [List.head?_reverse] at ha
    exact hlast a ha
  refine Text.ext ?_
  change ((t.letters.dropWhile isBlankLetter).reverse.dropWhile isBlankLetter).reverse = kept
  rw [hsplit]
  cases kept with
  | nil =>
    have hblank : ∀ a ∈ before ++ [] ++ after, isBlankLetter a = true := by
      intro a ha
      rw [List.append_nil] at ha
      exact (List.mem_append.mp ha).elim (hbefore a) (hafter a)
    have hnil := @dropWhile_isBlankLetter_append _ [] hblank (by simp)
    rw [List.append_nil] at hnil
    rw [hnil]
    rfl
  | cons a kept =>
    have hstart : ∀ x, (a :: kept ++ after).head? = some x → isBlankLetter x = false := by
      intro x hx
      exact hhead x hx
    rw [List.append_assoc, dropWhile_isBlankLetter_append hbefore hstart, List.reverse_append,
      dropWhile_isBlankLetter_append hafter' hlast', List.reverse_reverse]

/-- What is left of a text when white space is skipped from both its ends has only white space on
either side of it in that text. -/
lemma trims_stripped (t : Text) : Trims t t.stripped := by
  let mid := t.letters.dropWhile isBlankLetter
  let after := (mid.reverse.takeWhile isBlankLetter).reverse
  have hmid : mid = t.stripped.letters ++ after := by
    rw [← List.reverse_inj, List.reverse_append, stripped, List.reverse_reverse,
      List.reverse_reverse]
    exact List.takeWhile_append_dropWhile.symm
  refine ⟨⟨t.letters.takeWhile isBlankLetter, after, ?_, ?_, ?_⟩, ?_, ?_⟩
  · rw [List.append_assoc, ← hmid]
    exact List.takeWhile_append_dropWhile.symm
  · intro a ha
    exact List.all_eq_true.mp List.all_takeWhile a ha
  · intro a ha
    exact List.all_eq_true.mp List.all_takeWhile a (List.mem_reverse.mp ha)
  · intro a ha
    -- what is left starts where the text starts without the white space before it
    apply head?_dropWhile_isBlankLetter t.letters a
    change mid.head? = some a
    rw [hmid, List.head?_append, ha]
    rfl
  · intro a ha
    apply head?_dropWhile_isBlankLetter mid.reverse a
    rw [← ha, stripped, List.getLast?_reverse]

/-- **What is left of a text is all but the white space at its ends.** -/
theorem trims_iff : Trims t kept ↔ t.stripped = kept := by
  constructor
  · exact Trims.stripped_eq
  · rintro rfl
    exact trims_stripped t

/-- What is left has no white space at its ends, so nothing is taken away from it a second time. -/
lemma Trims.again (h : Trims t kept) : Trims kept kept where
  between := ⟨[], [], by simp, by simp, by simp⟩
  head := h.head
  last := h.last

/-- A letter that is not white space lies in neither of the ends that are taken away, so it is
left. -/
lemma Trims.mem_of_not_blank {a : Letter} (h : Trims t kept) (ha : a ∈ t.letters)
    (hletter : isBlankLetter a = false) : a ∈ kept.letters := by
  obtain ⟨before, after, hsplit, hbefore, hafter⟩ := h.between
  rw [hsplit] at ha
  simp only [List.mem_append] at ha
  rcases ha with (ha | ha) | ha
  · cases (hbefore a ha).symm.trans hletter
  · exact ha
  · cases (hafter a ha).symm.trans hletter

end CrateGate.Text
