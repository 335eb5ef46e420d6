import CrateGate.Proofs.Text.Split
import CrateGate.Version.Text

/-!
# The grammar of versions

What a version text is, said by rules and not by a reader: three numbers, then optionally
pre-release identifiers, then optionally build identifiers. A `Spelling` is a version in its parts,
and `Spelling.chars` puts them together.

The checks of the reader are the rules of the grammar (`isNumber_iff`, `isPreIdentifier_iff`,
`isBuildIdentifier_iff`). None of the parts holds a character that ends it.
-/

namespace CrateGate

variable {c : Char} {cs : List Char}

namespace Text

/-! ## Classes of characters -/

/-- The ASCII digits, by their numbers. -/
lemma isDigit_ascii_iff : c.isDigit = true ↔ 48 ≤ c.toNat ∧ c.toNat ≤ 57 := by
  simp only [Char.isDigit, Bool.and_eq_true, decide_eq_true_eq]
  rfl

/-- The ASCII letters, by their numbers. -/
lemma isAlpha_iff : c.isAlpha = true ↔
    (65 ≤ c.toNat ∧ c.toNat ≤ 90) ∨ (97 ≤ c.toNat ∧ c.toNat ≤ 122) := by
  unfold Char.isAlpha Char.isUpper Char.isLower
  simp only [Bool.or_eq_true, Bool.and_eq_true, decide_eq_true_eq]
  rfl

/-- The decimal digits of all scripts, by their numbers. -/
lemma isDigit_iff :
    isDigit c = true ↔ ∃ first ∈ digitZeros, first ≤ c.toNat ∧ c.toNat < first + 10 := by
  simp [isDigit, digitValue?, List.find?_isSome]

/-- Among the ASCII characters there are no other decimal digits than those from 0 to 9. -/
lemma isDigit_eq_of_lt (h : c.toNat < 128) : isDigit c = c.isDigit := by
  have hzeros : ∀ first ∈ digitZeros, first = 48 ∨ 128 ≤ first := by decide
  rw [Bool.eq_iff_iff, isDigit_iff, isDigit_ascii_iff]
  constructor
  · rintro ⟨first, hmem, hlow, hhigh⟩
    have hfirst := hzeros first hmem
    omega
  · rintro ⟨hlow, hhigh⟩
    exact ⟨48, by decide, hlow, by omega⟩

end Text

namespace Version

/-! ## Rules -/

/-- A number: `0`, or a digit from 1 to 9 and then decimal digits of any script. -/
inductive Number : List Char → Prop
  | zero : Number ['0']
  | positive {c : Char} {rest : List Char} (first : '1' ≤ c ∧ c ≤ '9')
      (digits : ∀ d ∈ rest, Text.isDigit d = true) : Number (c :: rest)

/-- The characters of identifiers: ASCII letters and digits, and the hyphen. -/
def IdentifierChar (c : Char) : Prop :=
  c.isAlphanum = true ∨ c = '-'

/-- The characters that make an identifier more than a number: ASCII letters and the hyphen. -/
def NonDigit (c : Char) : Prop :=
  c.isAlpha = true ∨ c = '-'

/-- A pre-release identifier: a number, or decimal digits of any script, if any, then a letter or a
hyphen, then letters, digits and hyphens, if any. -/
inductive PreIdentifier : List Char → Prop
  | number {cs : List Char} (number : Number cs) : PreIdentifier cs
  | alphanumeric {start rest : List Char} {c : Char}
      (digits : ∀ d ∈ start, Text.isDigit d = true) (mark : NonDigit c)
      (chars : ∀ d ∈ rest, IdentifierChar d) : PreIdentifier (start ++ c :: rest)

/-- A build identifier: letters, digits and hyphens, one at least. -/
structure BuildIdentifier (cs : List Char) : Prop where
  nonempty : cs ≠ []
  chars : ∀ c ∈ cs, IdentifierChar c

/-- A version in its parts. -/
structure Spelling where
  /-- The first number. -/
  major : List Char
  /-- The second number. -/
  minor : List Char
  /-- The third number. -/
  patch : List Char
  /-- The pre-release identifiers; none if there is no such part. -/
  pre : List (List Char)
  /-- The build identifiers; none if there is no such part. -/
  build : List (List Char)

namespace Spelling

/-- Identifiers with dots between them, after the mark of their part. -/
def part (mark : Char) (identifiers : List (List Char)) : List Char :=
  if identifiers = [] then [] else mark :: Text.joinWith ['.'] identifiers

/-- The three numbers with dots between them. -/
def core (w : Spelling) : List Char :=
  w.major ++ '.' :: w.minor ++ '.' :: w.patch

/-- The text that the parts make. -/
def chars (w : Spelling) : List Char :=
  w.core ++ part '-' w.pre ++ part '+' w.build

/-- Every part obeys its rule. -/
structure Valid (w : Spelling) : Prop where
  major : Number w.major
  minor : Number w.minor
  patch : Number w.patch
  pre : ∀ cs ∈ w.pre, PreIdentifier cs
  build : ∀ cs ∈ w.build, BuildIdentifier cs

/-- None of the three numbers has more digits than are computed. -/
def Short (w : Spelling) : Prop :=
  ∀ number ∈ [w.major, w.minor, w.patch], number.length ≤ Text.digitLimit

/-- The version that is spelled: the values of the numbers, and the other parts as they stand. -/
def version (w : Spelling) : Version where
  major := Text.decimalValue w.major
  minor := Text.decimalValue w.minor
  patch := Text.decimalValue w.patch
  pre := String.ofList (Text.joinWith ['.'] w.pre)
  build := String.ofList (Text.joinWith ['.'] w.build)

end Spelling

/-! ## Characters -/

/-- The test for identifier characters is what it means to be one. -/
lemma identifierChar_iff : isIdentifierChar c = true ↔ IdentifierChar c := by
  simp [isIdentifierChar, IdentifierChar, Text.isAlphanumeric, Char.isAlphanum]

/-- The test for marks in identifiers is what it means to be a letter or a hyphen. -/
lemma nonDigit_iff : isIdentifierMark c = true ↔ NonDigit c := by
  simp [isIdentifierMark, NonDigit]

/-- A letter or a hyphen can stand in an identifier. -/
lemma NonDigit.identifierChar (h : NonDigit c) : IdentifierChar c := by
  unfold IdentifierChar Char.isAlphanum
  rcases h with h | h
  · simp [h]
  · exact .inr h

/-- Identifier characters are of ASCII, so none of them is one of the other digits of Unicode. -/
lemma IdentifierChar.toNat_lt (h : IdentifierChar c) : c.toNat < 128 := by
  rcases h with h | rfl
  · rw [Char.isAlphanum, Bool.or_eq_true, Text.isAlpha_iff, Text.isDigit_ascii_iff] at h
    omega
  · decide

/-- A letter or a hyphen is no digit of any script. -/
lemma NonDigit.isDigit_eq_false (h : NonDigit c) : Text.isDigit c = false := by
  rw [Text.isDigit_eq_of_lt h.identifierChar.toNat_lt, Bool.eq_false_iff, ne_eq,
    Text.isDigit_ascii_iff]
  rcases h with h | rfl
  · rw [Text.isAlpha_iff] at h
    omega
  · decide

/-- The digits from 1 to 9 are the ASCII digits other than 0. -/
lemma positive_iff : '1' ≤ c ∧ c ≤ '9' ↔ c ≠ '0' ∧ c.isDigit = true := by
  have hzero : c = '0' ↔ c.toNat = 48 := by
    rw [Char.ext_iff, ← UInt32.toNat_inj]
    rfl
  have hone : '1' ≤ c ↔ 49 ≤ c.toNat := Iff.rfl
  have hnine : c ≤ '9' ↔ c.toNat ≤ 57 := Iff.rfl
  rw [ne_eq, hzero, hone, hnine, Text.isDigit_ascii_iff]
  omega

/-! ## The checks of the reader -/

/-- The test for numbers is what it means to be one: a digit, or digits that do not start with a
zero. -/
lemma isNumber_iff : isNumber cs = true ↔ Number cs := by
  constructor
  · intro h
    cases cs with
    | nil => cases h
    | cons c rest =>
      rw [isNumber] at h
      split at h
      · next hc =>
        rw [hc, List.isEmpty_iff.mp h]
        exact .zero
      · next hc =>
        obtain ⟨hdigit, hrest⟩ := Bool.and_eq_true_iff.mp h
        exact .positive (positive_iff.mpr ⟨hc, hdigit⟩) (List.all_eq_true.mp hrest)
  · intro h
    cases h with
    | zero => rfl
    | positive first digits =>
      obtain ⟨hc, hdigit⟩ := positive_iff.mp first
      rw [isNumber, if_neg hc, hdigit, List.all_eq_true.mpr digits]
      rfl

/-- The test for pre-release identifiers is what it means to be one: a number, or identifier
characters and digits with a mark among them. -/
lemma isPreIdentifier_iff : isPreIdentifier cs = true ↔ PreIdentifier cs := by
  unfold isPreIdentifier
  rw [Bool.or_eq_true, isNumber_iff]
  constructor
  · rintro (h | h)
    · exact .number h
    · unfold isAlphaIdentifier at h
      split at h
      · cases h
      · next c rest hdrop =>
        rw [Bool.and_eq_true, nonDigit_iff, List.all_eq_true] at h
        rw [← List.takeWhile_append_dropWhile (p := Text.isDigit) (l := cs), hdrop]
        refine .alphanumeric (fun d hd => ?_) h.1 fun d hd => identifierChar_iff.mp (h.2 d hd)
        exact List.all_eq_true.mp List.all_takeWhile d hd
  · intro h
    cases h with
    | number number => exact .inl number
    | @alphanumeric start rest c digits mark chars =>
      have hdrop : (start ++ c :: rest).dropWhile Text.isDigit = c :: rest := by
        rw [List.dropWhile_append_of_pos digits, List.dropWhile_cons_of_neg]
        simp [mark.isDigit_eq_false]
      right
      unfold isAlphaIdentifier
      rw [hdrop]
      simp only [Bool.and_eq_true, List.all_eq_true]
      exact ⟨nonDigit_iff.mpr mark, fun d hd => identifierChar_iff.mpr (chars d hd)⟩

/-- The test for build identifiers is what it means to be one: identifier characters, and at least
one. -/
lemma isBuildIdentifier_iff : isBuildIdentifier cs = true ↔ BuildIdentifier cs := by
  simp only [isBuildIdentifier, Bool.and_eq_true, Bool.not_eq_true', List.isEmpty_eq_false_iff,
    List.all_eq_true, identifierChar_iff]
  exact ⟨fun h => ⟨h.1, h.2⟩, fun h => ⟨h.nonempty, h.chars⟩⟩

end Version

end CrateGate
