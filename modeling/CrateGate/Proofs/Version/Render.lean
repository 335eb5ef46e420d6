import CrateGate.Proofs.Version.Text
import Mathlib.Algebra.Group.Nat.Defs
import Mathlib.Data.List.Basic

/-!
# Rendering versions

Not every version put together by hand has a text that can be read. The numbers of one that was read
are not negative and not too long, and its other parts are identifiers with dots between them
(`Canonical`). These are all the versions that texts write (`exists_parse_eq_ok_iff`), and for them
reading undoes rendering (`parse_render`), so that different ones have different texts
(`render_inj`).
-/

namespace CrateGate

namespace Text

variable {n : Nat} {c : Char} {cs : List Char} {parts : List (List Char)}

/-! ## Decimal digits -/

/-- A digit is worth nine at most, whatever script it is of. -/
lemma digitValue_le (c : Char) : digitValue c ≤ 9 := by
  unfold digitValue digitValue?
  cases hfind : digitZeros.find? fun first => first ≤ c.toNat && c.toNat < first + 10 with
  | none => simp
  | some first =>
    have hrange := List.find?_some hfind
    simp only [Bool.and_eq_true, decide_eq_true_eq] at hrange
    simp only [Option.map_some, Option.getD_some]
    omega

/-- The value of digits after those of a number. -/
lemma foldl_digitValue_lt (cs : List Char) (n : Nat) :
    cs.foldl (fun n c => 10 * n + digitValue c) n < (n + 1) * 10 ^ cs.length := by
  induction cs generalizing n with
  | nil => simp
  | cons c cs ih =>
    have hvalue := digitValue_le c
    calc (c :: cs).foldl (fun n c => 10 * n + digitValue c) n
        = cs.foldl (fun n c => 10 * n + digitValue c) (10 * n + digitValue c) := rfl
      _ < (10 * n + digitValue c + 1) * 10 ^ cs.length := ih _
      _ ≤ (10 * (n + 1)) * 10 ^ cs.length := Nat.mul_le_mul_right _ (by omega)
      _ = (n + 1) * 10 ^ (c :: cs).length := by
          rw [List.length_cons, Nat.pow_succ', Nat.mul_comm 10 (n + 1), Nat.mul_assoc]

/-- A number has no more digits than it is written with. -/
lemma length_toDigits_decimalValue_le (hne : cs ≠ []) :
    (Nat.toDigits 10 (decimalValue cs)).length ≤ cs.length := by
  rw [Nat.length_toDigits_le_iff (by decide) (List.length_pos_iff.mpr hne)]
  have hlt := foldl_digitValue_lt cs 0
  rwa [Nat.zero_add, Nat.one_mul] at hlt

/-- A number is written in digits of ASCII. -/
lemma isDigit_of_mem_toDigits (hc : c ∈ Nat.toDigits 10 n) : c.isDigit = true :=
  Nat.isDigit_of_mem_toDigits (by decide) (by decide) hc

/-- A digit of ASCII is worth its distance from the zero. -/
lemma digitValue_of_isDigit (h : c.isDigit = true) : digitValue c = c.toNat - 48 := by
  rw [digitValue, digitValue?_of_isDigit h]
  rfl

/-- The digits of a number write it. -/
lemma decimalValue_toDigits (n : Nat) : decimalValue (Nat.toDigits 10 n) = n := by
  have hvalue : ∀ cs : List Char, (∀ c ∈ cs, c.isDigit = true) →
      decimalValue cs = Nat.ofDigitChars 10 cs 0 := by
    intro cs hcs
    unfold decimalValue Nat.ofDigitChars
    refine List.foldl_ext _ _ _ fun n c hc => ?_
    rw [digitValue_of_isDigit (hcs c hc)]
    rfl
  rw [hvalue _ fun c hc => isDigit_of_mem_toDigits hc, Nat.ofDigitChars_ten_toDigits]

/-! ## Joined parts -/

/-- One or more parts that are not empty make a text that is not empty. -/
lemma joinWith_ne_nil (hne : parts ≠ []) (h : ∀ part ∈ parts, part ≠ []) :
    joinWith ['.'] parts ≠ [] := by
  obtain ⟨part, hpart⟩ := List.exists_mem_of_ne_nil parts hne
  obtain ⟨c, hc⟩ := List.exists_mem_of_ne_nil part (h part hpart)
  exact List.ne_nil_of_mem (subset_joinWith hpart hc)

end Text

namespace Version

open Spelling

variable {n : Nat} {i : Int} {c : Char} {cs : List Char} {identifiers : List (List Char)}
  {mark s text : String} {v v' : Version} {w : Spelling}

/-! ## The versions that texts write -/

/-- A number that texts can write: it is not negative, and has no more decimal digits than are
computed. -/
def Computed (i : Int) : Prop :=
  0 ≤ i ∧ (Nat.toDigits 10 i.toNat).length ≤ Text.digitLimit

/-- A text that is empty, or made of identifiers with dots between them. -/
def Dotted (identifier : List Char → Prop) (text : String) : Prop :=
  ∃ identifiers, (∀ cs ∈ identifiers, identifier cs) ∧
    text.toList = Text.joinWith ['.'] identifiers

/-- A version as it can be read. -/
structure Canonical (v : Version) : Prop where
  major : Computed v.major
  minor : Computed v.minor
  patch : Computed v.patch
  pre : Dotted PreIdentifier v.pre
  build : Dotted BuildIdentifier v.build

/-- A number has a digit at least. -/
lemma Number.ne_nil (h : Number cs) : cs ≠ [] := by
  cases h <;> exact List.cons_ne_nil _ _

/-- The value of a number with few enough digits can be computed, and so it can be written again. -/
lemma computed_decimalValue (h : Number cs) (hshort : cs.length ≤ Text.digitLimit) :
    Computed (Text.decimalValue cs) :=
  ⟨Int.natCast_nonneg _, Nat.le_trans (Text.length_toDigits_decimalValue_le h.ne_nil) hshort⟩

/-- The version of a valid spelling with numbers that can be computed is one that texts write. -/
lemma Spelling.Valid.canonical_version (h : w.Valid) (hshort : w.Short) : Canonical w.version where
  major := computed_decimalValue h.major (hshort _ (by simp))
  minor := computed_decimalValue h.minor (hshort _ (by simp))
  patch := computed_decimalValue h.patch (hshort _ (by simp))
  pre := ⟨w.pre, h.pre, String.toList_ofList⟩
  build := ⟨w.build, h.build, String.toList_ofList⟩

/-- What is read is spelled by the text. -/
lemma exists_spelling_of_parse (h : parse s = .ok v) :
    ∃ w : Spelling, w.Valid ∧ w.Short ∧ w.chars = s.toList ∧ w.version = v := by
  by_cases hspelled : ∃ w : Spelling, w.Valid ∧ w.chars = s.toList
  · obtain ⟨w, hvalid, hchars⟩ := hspelled
    rw [parse, ← hchars, parseChars_chars hvalid] at h
    split at h
    · cases h
    · next hlong =>
      rw [Bool.not_eq_true, ← short_iff] at hlong
      exact ⟨w, hvalid, hlong, hchars, Except.ok.inj h⟩
  · rw [parse_eq_malformed_iff.mpr hspelled] at h
    cases h

/-- Whatever is read is a version of this kind. -/
theorem canonical_of_parse (h : parse s = .ok v) : Canonical v := by
  obtain ⟨w, hvalid, hshort, -, rfl⟩ := exists_spelling_of_parse h
  exact hvalid.canonical_version hshort

/-! ## The text of a version -/

/-- The digits of a positive number start with one from 1 to 9. -/
lemma exists_toDigits_eq_cons (h : 0 < n) :
    ∃ c rest, Nat.toDigits 10 n = c :: rest ∧ '1' ≤ c ∧ c ≤ '9' := by
  induction n using Nat.strongRecOn with
  | ind n ih =>
    rw [Nat.toDigits_eq_if (by decide)]
    split
    · next hlt =>
      have hdigit : ∀ d < 10, 0 < d → '1' ≤ d.digitChar ∧ d.digitChar ≤ '9' := by decide
      exact ⟨_, _, rfl, hdigit n hlt h⟩
    · next hge =>
      obtain ⟨c, rest, hdigits, hc⟩ := ih (n / 10) (by omega) (by omega)
      rw [hdigits]
      exact ⟨c, _, rfl, hc⟩

/-- The digits of a number are a number of the grammar. -/
lemma number_toDigits (n : Nat) : Number (Nat.toDigits 10 n) := by
  rcases Nat.eq_zero_or_pos n with rfl | hpos
  · exact .zero
  · obtain ⟨c, rest, hdigits, hc⟩ := exists_toDigits_eq_cons hpos
    have hall : ∀ d ∈ c :: rest, d.isDigit = true := fun d hd =>
      Text.isDigit_of_mem_toDigits (hdigits ▸ hd)
    rw [hdigits]
    refine .positive hc fun d hd => ?_
    rw [Text.isDigit, Text.digitValue?_of_isDigit (hall d (List.mem_cons_of_mem _ hd))]
    rfl

/-- An integer that is not negative is written in the digits of a natural number. -/
lemma toList_toString (h : 0 ≤ i) : (toString i).toList = Nat.toDigits 10 i.toNat := by
  rw [Int.toString_eq_repr, Int.repr_eq_if, if_pos h, Nat.toList_repr]

/-- A pre-release identifier has a character at least. -/
lemma PreIdentifier.ne_nil (h : PreIdentifier cs) : cs ≠ [] := by
  cases h with
  | number number => exact number.ne_nil
  | alphanumeric => simp

/-- A part with its mark stands in the text of a version as it does in its spelling. -/
lemma toList_marked (hmark : mark.toList = [c]) (h : ∀ cs ∈ identifiers, cs ≠ [])
    (htext : text.toList = Text.joinWith ['.'] identifiers) :
    (marked mark text).toList = part c identifiers := by
  unfold marked part
  by_cases hnil : identifiers = []
  · have hempty : text = "" := by
      rw [← String.toList_eq_nil_iff, htext, hnil]
      rfl
    rw [if_pos hnil, hempty]
    rfl
  · have hne : text.isEmpty = false := by
      rw [Bool.eq_false_iff, ne_eq, String.isEmpty_iff, ← String.toList_eq_nil_iff, htext]
      exact Text.joinWith_ne_nil hnil h
    rw [if_neg hnil, hne, ← htext, if_neg Bool.false_ne_true, String.toList_append, hmark]
    rfl

/-- The spelling that a version is rendered in, if these are its identifiers. -/
def Spelling.ofVersion (v : Version) (pre build : List (List Char)) : Spelling where
  major := Nat.toDigits 10 v.major.toNat
  minor := Nat.toDigits 10 v.minor.toNat
  patch := Nat.toDigits 10 v.patch.toNat
  pre := pre
  build := build

/-- The digits of an integer that is not negative are worth that integer. -/
lemma decimalValue_toDigits_toNat (h : 0 ≤ i) :
    (Text.decimalValue (Nat.toDigits 10 i.toNat) : Int) = i := by
  rw [Text.decimalValue_toDigits, Int.toNat_of_nonneg h]

/-- The text of a version that can be read is a spelling of it. -/
lemma Canonical.exists_spelling (h : Canonical v) :
    ∃ w : Spelling, w.Valid ∧ w.Short ∧ w.chars = v.render.toList ∧ w.version = v := by
  obtain ⟨⟨hmajor, hmajor'⟩, ⟨hminor, hminor'⟩, ⟨hpatch, hpatch'⟩, ⟨pre, hpre, hpretext⟩,
    ⟨build, hbuild, hbuildtext⟩⟩ := h
  refine ⟨.ofVersion v pre build, ?_, ?_, ?_, ?_⟩
  · exact ⟨number_toDigits _, number_toDigits _, number_toDigits _, hpre, hbuild⟩
  · simp only [Short, List.forall_mem_cons]
    exact ⟨hmajor', hminor', hpatch', by simp⟩
  · have hpremarked : (marked "-" v.pre).toList = part '-' pre :=
      toList_marked rfl (fun cs hcs => (hpre cs hcs).ne_nil) hpretext
    have hbuildmarked : (marked "+" v.build).toList = part '+' build :=
      toList_marked rfl (fun cs hcs => (hbuild cs hcs).nonempty) hbuildtext
    simp only [render, Version.core, Spelling.chars, Spelling.core, String.toList_append,
      toList_toString hmajor, toList_toString hminor, toList_toString hpatch, hpremarked,
      hbuildmarked, Spelling.ofVersion]
    simp
  · simp only [Spelling.version, Spelling.ofVersion, decimalValue_toDigits_toNat hmajor,
      decimalValue_toDigits_toNat hminor, decimalValue_toDigits_toNat hpatch, ← hpretext,
      ← hbuildtext, String.ofList_toList]

/-- **Reading undoes rendering.** -/
theorem parse_render (h : Canonical v) : parse v.render = .ok v := by
  obtain ⟨w, hvalid, hshort, hchars, hversion⟩ := h.exists_spelling
  rw [parse_eq_ok hvalid hshort hchars, hversion]

/-- **The versions that texts write.** -/
theorem exists_parse_eq_ok_iff : (∃ s, parse s = .ok v) ↔ Canonical v :=
  ⟨fun ⟨_, h⟩ => canonical_of_parse h, fun h => ⟨v.render, parse_render h⟩⟩

/-- Different versions have different texts. -/
theorem render_inj (h : Canonical v) (h' : Canonical v') : v.render = v'.render ↔ v = v' := by
  constructor
  · intro heq
    have hread := parse_render h
    rw [heq, parse_render h'] at hread
    exact (Except.ok.inj hread).symm
  · rintro rfl
    rfl

end Version

end CrateGate
