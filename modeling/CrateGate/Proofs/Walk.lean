import Mathlib.Tactic.Lemma

/-!
# Walks that end at the first fault

Of two steps the second is made if the first goes well (`bind_eq_ok_iff`, `bind_eq_error_iff`).

Declarations, entries and manifests are taken one after another, each added to what the walk has
gathered so far, until one of them goes wrong. Of such a walk two things are needed: what every step
keeps holds in the end (`foldlM_keeps`), and a walk that fails has failed at one element, with all
those before it added (`foldlM_eq_error_iff`).
-/

namespace CrateGate

/-! ## Two steps -/

section Bind

variable {α β ε : Type} {first : Except ε α} {next : α → Except ε β} {fault : ε}

/-- Two steps go well if and only if the first does, and then the second with what the first came
to. -/
lemma bind_eq_ok_iff {b : β} :
    first.bind next = .ok b ↔ ∃ a, first = .ok a ∧ next a = .ok b := by
  cases first with
  | error fault => simp [Except.bind]
  | ok a => simp [Except.bind]

/-- Two steps go wrong if and only if the first does, or the second after the first has gone
well. -/
lemma bind_eq_error_iff :
    first.bind next = .error fault ↔
      first = .error fault ∨ ∃ a, first = .ok a ∧ next a = .error fault := by
  cases first with
  | error fault => simp [Except.bind]
  | ok a => simp [Except.bind]

end Bind

/-! ## Walks -/

variable {σ α ε : Type} {step : σ → α → Except ε σ} {s t : σ} {x : α} {xs before : List α}
  {fault : ε}

/-- A walk makes its first step and goes on from what that came to; if the step goes wrong, so does
the walk. -/
lemma foldlM_cons_eq (step : σ → α → Except ε σ) (s : σ) (x : α) (xs : List α) :
    (x :: xs).foldlM step s = (step s x).bind fun s => xs.foldlM step s :=
  rfl

/-- What every step of a walk keeps holds where it ends, of all that it has walked. -/
lemma foldlM_keeps {Holds : List α → σ → Prop}
    (hstep : ∀ before x s t, Holds before s → step s x = .ok t → Holds (before ++ [x]) t)
    (h : Holds before s) (hwalk : xs.foldlM step s = .ok t) : Holds (before ++ xs) t := by
  induction xs generalizing before s with
  | nil =>
    obtain rfl : s = t := Except.ok.inj hwalk
    rw [List.append_nil]
    exact h
  | cons x xs ih =>
    rw [foldlM_cons_eq] at hwalk
    cases hx : step s x with
    | error fault =>
      rw [hx] at hwalk
      cases hwalk
    | ok next =>
      rw [hx] at hwalk
      have hnext : Holds (before ++ [x] ++ xs) t := ih (hstep before x s next h hx) hwalk
      rwa [List.append_assoc] at hnext

/-- An element of a list is the first one, with nothing before it, or one of the others. -/
lemma exists_split_cons {P : List α → α → Prop} :
    (∃ before y after, x :: xs = before ++ y :: after ∧ P before y) ↔
      P [] x ∨ ∃ before y after, xs = before ++ y :: after ∧ P (x :: before) y := by
  constructor
  · rintro ⟨before, y, after, hsplit, h⟩
    cases before with
    | nil =>
      obtain ⟨rfl, -⟩ := List.cons.inj hsplit
      exact .inl h
    | cons z before =>
      obtain ⟨rfl, rfl⟩ := List.cons.inj hsplit
      exact .inr ⟨before, y, after, rfl, h⟩
  · rintro (h | ⟨before, y, after, rfl, h⟩)
    · exact ⟨[], x, xs, rfl, h⟩
    · exact ⟨x :: before, y, after, rfl, h⟩

/-- **A walk fails at one element**, once those before it have been added. -/
theorem foldlM_eq_error_iff : xs.foldlM step s = .error fault ↔
    ∃ before x after, xs = before ++ x :: after ∧
      ∃ t, before.foldlM step s = .ok t ∧ step t x = .error fault := by
  induction xs generalizing s with
  | nil =>
    constructor
    · intro h
      cases h
    · rintro ⟨before, x, after, hsplit, -⟩
      cases before <;> cases hsplit
  | cons x xs ih =>
    rw [exists_split_cons, foldlM_cons_eq]
    have hnil : (∃ t, [].foldlM step s = .ok t ∧ step t x = .error fault) ↔
        step s x = .error fault := by
      constructor
      · rintro ⟨t, ht, h⟩
        obtain rfl : s = t := Except.ok.inj ht
        exact h
      · intro h
        exact ⟨s, rfl, h⟩
    rw [hnil]
    simp only [foldlM_cons_eq]
    cases hx : step s x with
    | error first =>
      -- nothing is added after an element that goes wrong
      simp [Except.bind]
    | ok next =>
      simp only [Except.bind, reduceCtorEq, false_or]
      exact ih

end CrateGate
