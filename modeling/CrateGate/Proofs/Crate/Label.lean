import CrateGate.Crate.Label
import Mathlib.Algebra.Order.Field.Rat
import Mathlib.Algebra.Order.Field.Basic
import Mathlib.Data.Int.Cast.Lemmas

/-!
# What labels mean

A label that is no number in spite of its type means nothing; any other label means one thing
(`Label.meaning?`): a name, a number, an infinity, a day, a time of day, or a moment with or without
a zone. Labels are the same if and only if they mean one thing (`same_iff`), so that being the same
goes on from label to label (`same_trans`).

Labels have an order among themselves if and only if they are of one kind (`compare?_isSome_iff`).
-/

namespace CrateGate

/-! ## Meanings -/

/-- What a label can mean. -/
inductive Meaning
  | name (s : String)
  | number (q : ℚ)
  | infinite (negative : Bool)
  | day (ordinal : Nat)
  | time (micros : Nat)
  | floating (instant : Int)
  | zoned (instant : Int)

/-- What a floating-point number means; a value that is no number means nothing. -/
def Binary64.meaning? : Binary64 → Option Meaning
  | nan => none
  | infinite negative => some (.infinite negative)
  | finite negative m e => some (.number ((fraction negative m e).1 / (fraction negative m e).2))

/-- What a moment means: the day, the time, or the instant. -/
def Moment.meaning : Moment → Meaning
  | day d => .day d.ordinal
  | time t => .time t.micros
  | floating d t => .floating (floating d t).instant
  | zoned d t z => .zoned (zoned d t z).instant

/-- What a label means, if it means something; a flag means 0 or 1. -/
def Label.meaning? : Label → Option Meaning
  | crate a => some (.name a)
  | atom (.real x) => x.meaning?
  | atom (.moment m) => some m.meaning
  | atom a => (whole? a).map fun i => .number i

/-! ## Numbers -/

namespace Binary64

variable {x y : Binary64} {i : Int}

/-- A fraction scaled by a power of two keeps a positive denominator: it is multiplied by that
power, or stays 1. -/
lemma scaled_snd_pos (num : Nat) (e : Int) : 0 < (scaled num 1 e).2 := by
  unfold scaled
  simp only
  split
  · simp
  · exact Nat.one_pos

/-- The fraction that a binary number stands for has a positive denominator, whatever its sign and
its exponent. -/
lemma fraction_snd_pos (negative : Bool) (m : Nat) (e : Int) : 0 < (fraction negative m e).2 :=
  scaled_snd_pos m e

/-- Fractions compare as equal if they have one value. -/
lemma compareFractions_eq_iff {a b : Int × Nat} (ha : 0 < a.2) (hb : 0 < b.2) :
    compareFractions a b = .eq ↔ (a.1 : ℚ) / a.2 = b.1 / b.2 := by
  have ha' : (a.2 : ℚ) ≠ 0 := by exact_mod_cast ha.ne'
  have hb' : (b.2 : ℚ) ≠ 0 := by exact_mod_cast hb.ne'
  unfold compareFractions
  rw [compare_eq_iff_eq, div_eq_div_iff ha' hb']
  exact_mod_cast Iff.rfl

/-- A number that means something compares as equal to the integer that it means. -/
lemma compareInt_eq_iff : x.meaning? ≠ none ∧ (x.compareInt i).getD .eq = .eq ↔
    x.meaning? = some (.number i) := by
  cases x with
  | nan => simp [meaning?]
  | infinite negative => cases negative <;> simp [compareInt, meaning?]
  | finite negative m e =>
    have hfraction := compareFractions_eq_iff (b := (i, 1)) (fraction_snd_pos negative m e)
      Nat.one_pos
    simpa [compareInt, meaning?] using hfraction

/-- Numbers that mean something compare as equal if they mean one thing. -/
lemma compare_eq_iff :
    x.meaning? ≠ none ∧ y.meaning? ≠ none ∧ (x.compare y).getD .eq = .eq ↔
      ∃ m, x.meaning? = some m ∧ y.meaning? = some m := by
  cases x with
  | nan => simp [meaning?]
  | infinite negative =>
    cases y with
    | nan => simp [meaning?]
    | infinite negative' => cases negative <;> cases negative' <;> simp [compare, meaning?]
    | finite negative' m e => cases negative <;> simp [compare, meaning?]
  | finite negative m e =>
    cases y with
    | nan => simp [meaning?]
    | infinite negative' => cases negative' <;> simp [compare, meaning?]
    | finite negative' m' e' =>
      have hfraction := compareFractions_eq_iff (fraction_snd_pos negative m e)
        (fraction_snd_pos negative' m' e')
      simpa [compare, meaning?, eq_comm] using hfraction

end Binary64

/-! ## Kinds -/

/-- The kinds of things that labels name; an infinity is a kind of number. -/
inductive Kind
  | name
  | number
  | day
  | time
  | floating
  | zoned
deriving DecidableEq

/-- The kind of what a label means. -/
def Meaning.kind : Meaning → Kind
  | name _ => .name
  | number _ => .number
  | infinite _ => .number
  | day _ => .day
  | time _ => .time
  | floating _ => .floating
  | zoned _ => .zoned

namespace Label

variable {a b c : Label} {x y : Atom} {i j : Int} {r : Binary64}

/-- The kind of a label; one that is no number is of the kind of its type. -/
def kind : Label → Kind
  | crate _ => .name
  | atom (.moment m) => m.meaning.kind
  | atom _ => .number

/-- Only texts are names: no atom has their kind. -/
lemma kind_atom_ne_name (x : Atom) : (atom x).kind ≠ .name := by
  cases x with
  | moment m => cases m <;> simp [kind, Moment.meaning, Meaning.kind]
  | _ => simp [kind]

/-- A moment is not a number, so the two kinds never meet in a comparison that says something. -/
lemma kind_moment_ne_number (m : Moment) : (atom (.moment m)).kind ≠ .number := by
  cases m <;> simp [kind, Moment.meaning, Meaning.kind]

/-- **Labels have an order among themselves if and only if they are of one kind.** -/
theorem compare?_isSome_iff : (a.compare? b).isSome ↔ a.kind = b.kind := by
  cases a with
  | crate s =>
    cases b with
    | crate t => simp [compare?, kind]
    | atom y => simpa [compare?, kind] using (kind_atom_ne_name y).symm
  | atom x =>
    cases b with
    | crate t => simpa [compare?, kind] using kind_atom_ne_name x
    | atom y =>
      cases x with
      | moment m =>
        cases y with
        | moment n =>
          cases m <;> cases n <;> simp [compare?, compareAtoms, kind, Moment.meaning, Meaning.kind]
        | _ => simpa [compare?, compareAtoms, kind] using kind_moment_ne_number m
      | _ =>
        cases y with
        | moment n => simpa [compare?, compareAtoms, kind] using (kind_moment_ne_number n).symm
        | _ => simp [compare?, compareAtoms, whole?, kind]

/-! ## Atoms -/

/-- An atom is a number of either sort or a moment. -/
lemma atom_cases (x : Atom) :
    (∃ i, whole? x = some i) ∨ (∃ r, x = .real r) ∨ ∃ m, x = .moment m := by
  cases x with
  | flag b => exact .inl ⟨_, rfl⟩
  | integer i => exact .inl ⟨i, rfl⟩
  | real r => exact .inr (.inl ⟨r, rfl⟩)
  | moment m => exact .inr (.inr ⟨m, rfl⟩)

/-- What counts as a whole number, an integer or a truth value, is of the kind of numbers. -/
lemma kind_whole (h : whole? x = some i) : (atom x).kind = .number := by
  cases x with
  | moment m => cases h
  | _ => rfl

/-- What counts as a whole number means the number that it counts as, exactly. -/
lemma meaning?_whole (h : whole? x = some i) : (atom x).meaning? = some (.number i) := by
  cases x <;> cases h <;> rfl

/-- Two whole numbers are compared as integers, whether they are written as integers or as truth
values. -/
lemma compareAtoms_whole (hx : whole? x = some i) (hy : whole? y = some j) :
    compareAtoms x y = some (compare i j) := by
  cases x <;> cases hx <;> cases y <;> cases hy <;> rfl

/-- A binary number is compared with a whole one by its exact value; with a number that is none the
two do not differ. -/
lemma compareAtoms_real_whole (hy : whole? y = some i) :
    compareAtoms (.real r) y = some ((r.compareInt i).getD .eq) := by
  cases y <;> cases hy <;> rfl

/-- A whole number is compared with a binary one as the other way round, with the answer turned. -/
lemma compareAtoms_whole_real (hx : whole? x = some i) :
    compareAtoms x (.real r) = some ((r.compareInt i).getD .eq).swap := by
  cases x <;> cases hx <;> rfl

/-- Two moments are equal in a comparison if and only if they mean one point in time, or one date or
time of day. -/
lemma compareAtoms_moments {m n : Moment} :
    compareAtoms (.moment m) (.moment n) = some .eq ↔ m.meaning = n.meaning := by
  cases m <;> cases n <;> simp [compareAtoms, Moment.meaning]

/-! ## Labels that are the same -/

/-- Of all labels only those that are no number at all have no meaning. -/
lemma isNan_iff : a.isNan = true ↔ a.meaning? = none := by
  cases a with
  | crate s => simp [isNan, meaning?]
  | atom value =>
    cases value with
    | real x => cases x <;> simp [isNan, meaning?, Binary64.meaning?]
    | _ => simp [isNan, meaning?, whole?]

/-- Labels are the same if both mean something and they compare as equal. -/
lemma same_iff_compare? :
    a.same b = true ↔ a.meaning? ≠ none ∧ b.meaning? ≠ none ∧ a.compare? b = some .eq := by
  unfold same
  rw [Bool.and_eq_true, Bool.and_eq_true, Bool.not_eq_true', Bool.not_eq_true', beq_iff_eq,
    and_assoc, Bool.eq_false_iff, Bool.eq_false_iff, ne_eq, ne_eq, isNan_iff, isNan_iff]

/-- Labels that are the same are of one kind: there is no equality between kinds. -/
lemma kind_eq_of_same (h : a.same b = true) : a.kind = b.kind := by
  obtain ⟨-, -, hcompare⟩ := same_iff_compare?.mp h
  exact compare?_isSome_iff.mp (by rw [hcompare]; rfl)

/-- The kind of a label is that of what it means. -/
lemma kind_of_meaning? {m : Meaning} (h : a.meaning? = some m) : a.kind = m.kind := by
  cases a with
  | crate s =>
    obtain rfl := Option.some.inj h
    rfl
  | atom x =>
    rcases atom_cases x with ⟨i, hx⟩ | ⟨r, rfl⟩ | ⟨n, rfl⟩
    · rw [meaning?_whole hx] at h
      obtain rfl := Option.some.inj h
      exact kind_whole hx
    · cases r with
      | nan => cases h
      | infinite negative =>
        obtain rfl := Option.some.inj h
        rfl
      | finite negative m e =>
        obtain rfl := Option.some.inj h
        rfl
    · obtain rfl := Option.some.inj h
      cases n <;> rfl

/-- Atoms of one kind are the same if and only if both have a meaning and it is one. -/
lemma same_atom_iff (hkind : (atom x).kind = (atom y).kind) : (atom x).same (atom y) = true ↔
    ∃ m, (atom x).meaning? = some m ∧ (atom y).meaning? = some m := by
  rw [same_iff_compare?]
  change _ ∧ _ ∧ compareAtoms x y = some .eq ↔ _
  rcases atom_cases x with ⟨i, hx⟩ | ⟨r, rfl⟩ | ⟨m, rfl⟩
  · rcases atom_cases y with ⟨j, hy⟩ | ⟨q, rfl⟩ | ⟨n, rfl⟩
    · rw [meaning?_whole hx, meaning?_whole hy, compareAtoms_whole hx hy, Option.some.injEq,
        compare_eq_iff_eq]
      simp [eq_comm]
    · have hreal := Binary64.compareInt_eq_iff (x := q) (i := i)
      rw [meaning?_whole hx, compareAtoms_whole_real hx]
      simpa [meaning?] using hreal
    · exact absurd (hkind.symm.trans (kind_whole hx)) (kind_moment_ne_number n)
  · rcases atom_cases y with ⟨j, hy⟩ | ⟨q, rfl⟩ | ⟨n, rfl⟩
    · have hreal := Binary64.compareInt_eq_iff (x := r) (i := j)
      rw [meaning?_whole hy, compareAtoms_real_whole hy]
      simpa [meaning?] using hreal
    · have hreal := Binary64.compare_eq_iff (x := r) (y := q)
      simpa [meaning?, compareAtoms] using hreal
    · exact absurd hkind.symm (kind_moment_ne_number n)
  · rcases atom_cases y with ⟨j, hy⟩ | ⟨q, rfl⟩ | ⟨n, rfl⟩
    · exact absurd (hkind.trans (kind_whole hy)) (kind_moment_ne_number m)
    · exact absurd hkind (kind_moment_ne_number m)
    · rw [compareAtoms_moments]
      simp [meaning?, eq_comm]

/-- **Labels are the same if and only if they mean one thing.** -/
theorem same_iff : a.same b = true ↔ ∃ m, a.meaning? = some m ∧ b.meaning? = some m := by
  by_cases hkind : a.kind = b.kind
  · cases a with
    | crate s =>
      cases b with
      | crate t =>
        have hcompare : (crate s).compare? (crate t) = some (compare s t) := rfl
        rw [same_iff_compare?, hcompare, Option.some.injEq, Std.compare_eq_iff_eq]
        simp [meaning?, eq_comm]
      | atom y => exact absurd hkind.symm (kind_atom_ne_name y)
    | atom x =>
      cases b with
      | crate t => exact absurd hkind (kind_atom_ne_name x)
      | atom y => exact same_atom_iff hkind
  · constructor
    · intro h
      exact absurd (kind_eq_of_same h) hkind
    · rintro ⟨m, ha, hb⟩
      exact absurd ((kind_of_meaning? ha).trans (kind_of_meaning? hb).symm) hkind

/-- Sameness goes both ways, as it is equality of meanings. -/
lemma same_symm (h : a.same b = true) : b.same a = true := by
  obtain ⟨m, ha, hb⟩ := same_iff.mp h
  exact same_iff.mpr ⟨m, hb, ha⟩

/-- Being the same goes on from label to label. -/
lemma same_trans (h : a.same b = true) (h' : b.same c = true) : a.same c = true := by
  obtain ⟨m, ha, hb⟩ := same_iff.mp h
  obtain ⟨n, hb', hc⟩ := same_iff.mp h'
  obtain rfl : m = n := Option.some.inj (hb.symm.trans hb')
  exact same_iff.mpr ⟨m, ha, hc⟩

end Label

end CrateGate
