import CrateGate.Yaml.Token
import Mathlib.Tactic.Lemma

/-!
# Trails of slips

A document is read step by step. A step leads to a later state, or it fails, mostly because the text
is no document, and now and then in a slip. To say where slips come from, a trail names which states
come after which, and which slips a state gives reason for; the reasons of a later state are reasons
of every earlier one. A step keeps to a trail if it leads on along it and slips only for a reason
(`Trail.Keeps`). What is made of such steps keeps to it as well (`Trail.Keeps.bind`,
`Trail.Keeps.foldlM`).
-/

namespace CrateGate.Yaml

/-- Which states come after which, and which slips a state gives reason for. -/
structure Trail (σ : Type) where
  /-- The second state comes after the first one. -/
  After : σ → σ → Prop
  /-- The state gives reason for a slip. -/
  Slips : σ → Slip → Prop
  refl : ∀ s, After s s
  trans : ∀ {s t u}, After s t → After t u → After s u
  back : ∀ {s t slip}, After s t → Slips t slip → Slips s slip

namespace Trail

variable {σ α β : Type} {T : Trail σ} {s t : σ} {out : α → σ} {last : β → σ}
  {step : Except Problem α} {next : α → Except Problem β}

/-- A step from a state, of which `out` shows where it leads, keeps to a trail. -/
structure Keeps (T : Trail σ) (s : σ) (out : α → σ) (step : Except Problem α) : Prop where
  after : ∀ a, step = .ok a → T.After s (out a)
  slips : ∀ slip, step = .error (.unexpected slip) → T.Slips s slip

/-- A step that goes well keeps a trail if what it leaves behind comes after what it began with. -/
lemma Keeps.ok {a : α} (h : T.After s (out a)) : T.Keeps s out (.ok a) := by
  constructor
  · intro b hb
    obtain rfl := Except.ok.inj hb
    exact h
  · intro slip hslip
    cases hslip

/-- A step that finds a text malformed keeps every trail, since it leaves nothing behind and does
not slip. -/
lemma Keeps.malformed : T.Keeps s out (.error .malformed) := by
  constructor
  · intro a ha
    cases ha
  · intro slip hslip
    cases hslip

/-- A step that slips keeps a trail if the trail has a reason for that slip where the step began. -/
lemma Keeps.slip {slip : Slip} (h : T.Slips s slip) : T.Keeps s out (unexpected slip) := by
  constructor
  · intro a ha
    cases ha
  · intro slip' hslip
    cases hslip
    exact h

/-- A token that cannot go on fails without a slip. -/
lemma Keeps.fail {c : Cursor} : T.Keeps s out c.fail := by
  unfold Cursor.fail
  split
  · constructor
    · intro a ha
      cases ha
    · intro slip hslip
      cases hslip
  · exact .malformed

/-- A choice between steps that keep to a trail does so. -/
lemma Keeps.ite {p : Prop} [Decidable p] {other : Except Problem α} (h : T.Keeps s out step)
    (h' : T.Keeps s out other) : T.Keeps s out (if p then step else other) := by
  split
  · exact h
  · exact h'

/-- A step that keeps to a trail from a later state does so from an earlier one. -/
lemma Keeps.mono (hst : T.After s t) (h : T.Keeps t out step) : T.Keeps s out step := by
  constructor
  · intro a ha
    exact T.trans hst (h.after a ha)
  · intro slip hslip
    exact T.back hst (h.slips slip hslip)

/-- Two steps keep to a trail, if the first does and the second does where the first one leads. -/
lemma Keeps.bind (hstep : T.Keeps s out step)
    (hnext : ∀ a, step = .ok a → T.Keeps (out a) last (next a)) :
    T.Keeps s last (step >>= next) := by
  cases step with
  | error problem =>
    constructor
    · intro b hb
      cases hb
    · intro slip hslip
      cases hslip
      exact hstep.slips slip rfl
  | ok a => exact (hnext a rfl).mono (hstep.after a rfl)

/-- A walk keeps to a trail if each of its steps does. -/
lemma Keeps.foldlM (out : α → σ) {x : α → β → Except Problem α}
    (hx : ∀ a b, T.Keeps (out a) out (x a b)) (bs : List β) (a : α) :
    T.Keeps (out a) out (bs.foldlM x a) := by
  induction bs generalizing a with
  | nil => exact .ok (T.refl (out a))
  | cons b bs ih =>
    rw [List.foldlM_cons]
    apply Keeps.bind (hx a b)
    intro a' _
    exact ih a'

/-- A step that has to look some characters on first keeps to a trail as it does without that. -/
lemma Keeps.look {c : Cursor} {k : Nat} (h : T.Keeps s out step) :
    T.Keeps s out (c.look k >>= fun _ => step) := by
  unfold Cursor.look
  split
  · constructor
    · intro a ha
      cases ha
    · intro slip hslip
      cases hslip
  · exact h

/-- A last step from a state slips only for a reason. -/
def Ends (T : Trail σ) (s : σ) (step : Except Problem α) : Prop :=
  ∀ slip, step = .error (.unexpected slip) → T.Slips s slip

/-- A step that goes well ends without a slip, whatever it comes to. -/
lemma Ends.ok {a : α} : T.Ends s (.ok a) := by
  intro slip hslip
  cases hslip

/-- A step that finds a text malformed ends without a slip too. -/
lemma Ends.malformed : T.Ends s (.error .malformed : Except Problem α) := by
  intro slip hslip
  cases hslip

/-- What ends well from a later state does so from an earlier one, as reasons for slips are not lost
by going back. -/
lemma Ends.mono (hst : T.After s t) (h : T.Ends t step) : T.Ends s step := by
  intro slip hslip
  exact T.back hst (h slip hslip)

/-- A step that keeps a trail can be followed by one that ends from where it leads. -/
lemma Ends.bind (hstep : T.Keeps s out step)
    (hnext : ∀ a, step = .ok a → T.Ends (out a) (next a)) : T.Ends s (step >>= next) := by
  cases step with
  | error problem =>
    intro slip hslip
    cases hslip
    exact hstep.slips slip rfl
  | ok a => exact (hnext a rfl).mono (hstep.after a rfl)

end Trail

end CrateGate.Yaml
