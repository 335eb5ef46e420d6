import CrateGate.Proofs.Version.Grammar

/-!
# The published grammar

The grammar that semver.org publishes for version 2.0.0, rule by rule. It knows ASCII digits only;
on ASCII texts it accepts what the grammar of this library accepts (`validSemver_iff`).
-/

namespace CrateGate.Version.Bnf

variable {c : Char} {cs : List Char} {P Q : List Char → Prop}

/-! ## Rules -/

/-- `<positive digit>` -/
def PositiveDigit (c : Char) : Prop :=
  '1' ≤ c ∧ c ≤ '9'

/-- `<digit>` -/
def Digit (c : Char) : Prop :=
  c = '0' ∨ PositiveDigit c

/-- `<identifier character>`, where `<non-digit>` is a letter or a hyphen. -/
def IdentifierCharacter (c : Char) : Prop :=
  Digit c ∨ NonDigit c

/-- One character of a kind or more, as in `<digits>` and `<identifier characters>`. -/
inductive Repeated (P : Char → Prop) : List Char → Prop
  | one {c : Char} (character : P c) : Repeated P [c]
  | more {c : Char} {cs : List Char} (character : P c) (characters : Repeated P cs) :
      Repeated P (c :: cs)

/-- `<digits>` -/
def Digits : List Char → Prop :=
  Repeated Digit

/-- `<identifier characters>` -/
def IdentifierCharacters : List Char → Prop :=
  Repeated IdentifierCharacter

/-- `<numeric identifier>` -/
inductive NumericIdentifier : List Char → Prop
  | zero : NumericIdentifier ['0']
  | positive {c : Char} (first : PositiveDigit c) : NumericIdentifier [c]
  | digits {c : Char} {cs : List Char} (first : PositiveDigit c) (digits : Digits cs) :
      NumericIdentifier (c :: cs)

/-- `<alphanumeric identifier>` -/
inductive AlphanumericIdentifier : List Char → Prop
  | nonDigit {c : Char} (mark : NonDigit c) : AlphanumericIdentifier [c]
  | first {c : Char} {cs : List Char} (mark : NonDigit c) (after : IdentifierCharacters cs) :
      AlphanumericIdentifier (c :: cs)
  | last {cs : List Char} {c : Char} (before : IdentifierCharacters cs) (mark : NonDigit c) :
      AlphanumericIdentifier (cs ++ [c])
  | inside {cs cs' : List Char} {c : Char} (before : IdentifierCharacters cs) (mark : NonDigit c)
      (after : IdentifierCharacters cs') : AlphanumericIdentifier (cs ++ c :: cs')

/-- `<pre-release identifier>` -/
inductive PreReleaseIdentifier : List Char → Prop
  | alphanumeric {cs : List Char} (identifier : AlphanumericIdentifier cs) :
      PreReleaseIdentifier cs
  | numeric {cs : List Char} (identifier : NumericIdentifier cs) : PreReleaseIdentifier cs

/-- `<build identifier>` -/
inductive BuildIdentifier : List Char → Prop
  | alphanumeric {cs : List Char} (identifier : AlphanumericIdentifier cs) : BuildIdentifier cs
  | digits {cs : List Char} (digits : Digits cs) : BuildIdentifier cs

/-- `<dot-separated pre-release identifiers>` and `<dot-separated build identifiers>` -/
inductive DotSeparated (P : List Char → Prop) : List Char → Prop
  | one {cs : List Char} (identifier : P cs) : DotSeparated P cs
  | more {cs cs' : List Char} (identifier : P cs) (identifiers : DotSeparated P cs') :
      DotSeparated P (cs ++ '.' :: cs')

/-- `<version core>` -/
inductive VersionCore : List Char → Prop
  | numbers {major minor patch : List Char} (first : NumericIdentifier major)
      (second : NumericIdentifier minor) (third : NumericIdentifier patch) :
      VersionCore (major ++ '.' :: minor ++ '.' :: patch)

/-- `<valid semver>` -/
inductive ValidSemver : List Char → Prop
  | core {cs : List Char} (core : VersionCore cs) : ValidSemver cs
  | pre {cs pre : List Char} (core : VersionCore cs)
      (identifiers : DotSeparated PreReleaseIdentifier pre) : ValidSemver (cs ++ '-' :: pre)
  | build {cs build : List Char} (core : VersionCore cs)
      (identifiers : DotSeparated BuildIdentifier build) : ValidSemver (cs ++ '+' :: build)
  | preBuild {cs pre build : List Char} (core : VersionCore cs)
      (identifiers : DotSeparated PreReleaseIdentifier pre)
      (identifiers' : DotSeparated BuildIdentifier build) :
      ValidSemver (cs ++ '-' :: pre ++ '+' :: build)

/-! ## Identifiers -/

/-- The digits of the grammar are those of ASCII. -/
lemma digit_iff : Digit c ↔ c.isDigit = true := by
  unfold Digit PositiveDigit
  rw [positive_iff]
  by_cases hc : c = '0'
  · simp [hc]
  · simp [hc]

/-- A character of an identifier, in the grammar, is a digit, a letter or a hyphen of ASCII. -/
lemma identifierCharacter_iff : IdentifierCharacter c ↔ IdentifierChar c := by
  unfold IdentifierCharacter IdentifierChar NonDigit Char.isAlphanum
  rw [digit_iff, Bool.or_eq_true, ← or_assoc, or_comm (a := c.isDigit = true)]

/-- A class that is repeated once or more gives the texts that are not empty and of that class
throughout. -/
lemma repeated_iff {P : Char → Prop} : Repeated P cs ↔ cs ≠ [] ∧ ∀ c ∈ cs, P c := by
  constructor
  · intro h
    induction h with
    | one character => simpa using character
    | more character _ ih =>
      exact ⟨List.cons_ne_nil _ _, List.forall_mem_cons.mpr ⟨character, ih.2⟩⟩
  · rintro ⟨hne, hall⟩
    induction cs with
    | nil => exact absurd rfl hne
    | cons c cs ih =>
      obtain ⟨hc, hcs⟩ := List.forall_mem_cons.mp hall
      by_cases hnil : cs = []
      · rw [hnil]
        exact .one hc
      · exact .more hc (ih hnil hcs)

/-- Digits in the grammar are a text of one or more digits of ASCII. -/
lemma digits_iff : Digits cs ↔ cs ≠ [] ∧ ∀ c ∈ cs, c.isDigit = true := by
  simp only [Digits, repeated_iff, digit_iff]

/-- Identifier characters in the grammar are a text of one or more of them. -/
lemma identifierCharacters_iff :
    IdentifierCharacters cs ↔ cs ≠ [] ∧ ∀ c ∈ cs, IdentifierChar c := by
  simp only [IdentifierCharacters, repeated_iff, identifierCharacter_iff]

/-- An alphanumeric identifier is made of the characters of identifiers, and they are not all
digits. -/
lemma alphanumericIdentifier_iff :
    AlphanumericIdentifier cs ↔ (∀ c ∈ cs, IdentifierChar c) ∧ ∃ c ∈ cs, NonDigit c := by
  constructor
  · intro h
    cases h with
    | nonDigit mark => simpa using ⟨mark.identifierChar, mark⟩
    | first mark after =>
      have hafter := (identifierCharacters_iff.mp after).2
      exact ⟨List.forall_mem_cons.mpr ⟨mark.identifierChar, hafter⟩, _, List.mem_cons_self, mark⟩
    | last before mark =>
      have hbefore := (identifierCharacters_iff.mp before).2
      refine ⟨List.forall_mem_append.mpr ⟨hbefore, ?_⟩, _,
        List.mem_append_right _ List.mem_cons_self, mark⟩
      simpa using mark.identifierChar
    | inside before mark after =>
      have hbefore := (identifierCharacters_iff.mp before).2
      have hafter := (identifierCharacters_iff.mp after).2
      refine ⟨List.forall_mem_append.mpr ⟨hbefore, ?_⟩, _,
        List.mem_append_right _ List.mem_cons_self, mark⟩
      exact List.forall_mem_cons.mpr ⟨mark.identifierChar, hafter⟩
  · rintro ⟨hall, c, hmem, hmark⟩
    obtain ⟨before, after, rfl⟩ := List.append_of_mem hmem
    obtain ⟨hbefore, hrest⟩ := List.forall_mem_append.mp hall
    obtain ⟨-, hafter⟩ := List.forall_mem_cons.mp hrest
    by_cases hbefore' : before = [] <;> by_cases hafter' : after = []
    · rw [hbefore', hafter']
      exact .nonDigit hmark
    · rw [hbefore']
      exact .first hmark (identifierCharacters_iff.mpr ⟨hafter', hafter⟩)
    · rw [hafter']
      exact .last (identifierCharacters_iff.mpr ⟨hbefore', hbefore⟩) hmark
    · exact .inside (identifierCharacters_iff.mpr ⟨hbefore', hbefore⟩) hmark
        (identifierCharacters_iff.mpr ⟨hafter', hafter⟩)

/-- On ASCII texts a numeric identifier of the grammar is a number as versions have it: zero, or
digits without a zero before them. -/
lemma numericIdentifier_iff (hascii : ∀ c ∈ cs, c.toNat < 128) :
    NumericIdentifier cs ↔ Number cs := by
  constructor
  · intro h
    cases h with
    | zero => exact .zero
    | positive first => exact .positive first (by simp)
    | digits first digits =>
      refine .positive first fun d hd => ?_
      rw [Text.isDigit_eq_of_lt (hascii d (List.mem_cons_of_mem _ hd))]
      exact (digits_iff.mp digits).2 d hd
  · intro h
    cases h with
    | zero => exact .zero
    | @positive c rest first digits =>
      by_cases hrest : rest = []
      · rw [hrest]
        exact .positive first
      · refine .digits first (digits_iff.mpr ⟨hrest, fun d hd => ?_⟩)
        rw [← Text.isDigit_eq_of_lt (hascii d (List.mem_cons_of_mem _ hd))]
        exact digits d hd

/-- Before the first character of an identifier that is no digit there are digits alone. -/
lemma exists_first_nonDigit (hall : ∀ c ∈ cs, IdentifierChar c) (hmark : ∃ c ∈ cs, NonDigit c) :
    ∃ start c rest, cs = start ++ c :: rest ∧ (∀ d ∈ start, d.isDigit = true) ∧ NonDigit c := by
  induction cs with
  | nil =>
    obtain ⟨c, hmem, -⟩ := hmark
    cases hmem
  | cons c cs ih =>
    obtain ⟨hc, hcs⟩ := List.forall_mem_cons.mp hall
    rcases identifierCharacter_iff.mpr hc with hdigit | hnonDigit
    · obtain ⟨d, hmem, hd⟩ := hmark
      rcases List.mem_cons.mp hmem with rfl | hmem
      · exact ⟨[], d, cs, rfl, by simp, hd⟩
      · obtain ⟨start, m, rest, rfl, hstart, hm⟩ := ih hcs ⟨d, hmem, hd⟩
        exact ⟨c :: start, m, rest, rfl,
          List.forall_mem_cons.mpr ⟨digit_iff.mp hdigit, hstart⟩, hm⟩
    · exact ⟨[], c, cs, rfl, by simp, hnonDigit⟩

/-- On ASCII texts the pre-release identifiers of the grammar are those that are read. -/
lemma preReleaseIdentifier_iff (hascii : ∀ c ∈ cs, c.toNat < 128) :
    PreReleaseIdentifier cs ↔ PreIdentifier cs := by
  constructor
  · intro h
    cases h with
    | alphanumeric identifier =>
      obtain ⟨hall, hmark⟩ := alphanumericIdentifier_iff.mp identifier
      obtain ⟨start, c, rest, rfl, hstart, hc⟩ := exists_first_nonDigit hall hmark
      refine .alphanumeric (fun d hd => ?_) hc fun d hd => hall d (by simp [hd])
      rw [Text.isDigit_eq_of_lt (hascii d (List.mem_append_left _ hd))]
      exact hstart d hd
    | numeric identifier => exact .number ((numericIdentifier_iff hascii).mp identifier)
  · intro h
    cases h with
    | number number => exact .numeric ((numericIdentifier_iff hascii).mpr number)
    | @alphanumeric start rest c digits mark chars =>
      refine .alphanumeric (alphanumericIdentifier_iff.mpr
        ⟨List.forall_mem_append.mpr ⟨fun d hd => ?_, ?_⟩, c, by simp, mark⟩)
      · have hdigit := digits d hd
        rw [Text.isDigit_eq_of_lt (hascii d (List.mem_append_left _ hd))] at hdigit
        exact .inl (by simp [Char.isAlphanum, hdigit])
      · exact List.forall_mem_cons.mpr ⟨mark.identifierChar, chars⟩

/-- The build identifiers of the grammar are those that are read, on any text. -/
lemma buildIdentifier_iff : BuildIdentifier cs ↔ Version.BuildIdentifier cs := by
  constructor
  · intro h
    cases h with
    | alphanumeric identifier =>
      obtain ⟨hall, c, hmem, -⟩ := alphanumericIdentifier_iff.mp identifier
      exact ⟨List.ne_nil_of_mem hmem, hall⟩
    | digits digits =>
      obtain ⟨hne, hall⟩ := digits_iff.mp digits
      exact ⟨hne, fun c hc => .inl (by simp [Char.isAlphanum, hall c hc])⟩
  · rintro ⟨hne, hall⟩
    by_cases hmark : ∃ c ∈ cs, NonDigit c
    · exact .alphanumeric (alphanumericIdentifier_iff.mpr ⟨hall, hmark⟩)
    · refine .digits (digits_iff.mpr ⟨hne, fun c hc => ?_⟩)
      have hnot : ¬NonDigit c := fun h => hmark ⟨c, hc, h⟩
      exact ((identifierCharacter_iff.mpr (hall c hc)).resolve_right hnot |> digit_iff.mp)

/-! ## Texts -/

/-- Identifiers with dots between them are identifiers that are joined by dots. -/
lemma dotSeparated_iff : DotSeparated P cs ↔
    ∃ parts, parts ≠ [] ∧ (∀ part ∈ parts, P part) ∧ Text.joinWith ['.'] parts = cs := by
  constructor
  · intro h
    induction h with
    | @one cs identifier => exact ⟨[cs], List.cons_ne_nil _ _, by simpa using identifier, rfl⟩
    | @more cs cs' identifier _ ih =>
      obtain ⟨parts, hne, hall, rfl⟩ := ih
      refine ⟨cs :: parts, List.cons_ne_nil _ _, List.forall_mem_cons.mpr ⟨identifier, hall⟩, ?_⟩
      cases parts with
      | nil => exact absurd rfl hne
      | cons next parts => rw [Text.joinWith_cons_cons]
  · rintro ⟨parts, hne, hall, rfl⟩
    induction parts with
    | nil => exact absurd rfl hne
    | cons part parts ih =>
      obtain ⟨hpart, hparts⟩ := List.forall_mem_cons.mp hall
      cases parts with
      | nil => exact .one hpart
      | cons next parts =>
        rw [Text.joinWith_cons_cons]
        exact .more hpart (ih (List.cons_ne_nil _ _) hparts)

/-- Nothing, or a mark and identifiers with dots between them. -/
def Marked (mark : Char) (P : List Char → Prop) (cs : List Char) : Prop :=
  cs = [] ∨ ∃ identifiers, DotSeparated P identifiers ∧ cs = mark :: identifiers

/-- The two optional parts are optional each on its own. -/
lemma validSemver_iff_marked : ValidSemver cs ↔
    ∃ core pre build, VersionCore core ∧ Marked '-' PreReleaseIdentifier pre ∧
      Marked '+' BuildIdentifier build ∧ cs = core ++ pre ++ build := by
  constructor
  · intro h
    cases h with
    | core core => exact ⟨_, [], [], core, .inl rfl, .inl rfl, by simp⟩
    | pre core identifiers =>
      exact ⟨_, _, [], core, .inr ⟨_, identifiers, rfl⟩, .inl rfl, by simp⟩
    | build core identifiers =>
      exact ⟨_, [], _, core, .inl rfl, .inr ⟨_, identifiers, rfl⟩, by simp⟩
    | preBuild core identifiers identifiers' =>
      exact ⟨_, _, _, core, .inr ⟨_, identifiers, rfl⟩, .inr ⟨_, identifiers', rfl⟩, by simp⟩
  · rintro ⟨core, pre, build, hcore, hpre, hbuild, rfl⟩
    rcases hpre with rfl | ⟨pre, hpre, rfl⟩ <;> rcases hbuild with rfl | ⟨build, hbuild, rfl⟩
    · simpa using .core hcore
    · simpa using .build hcore hbuild
    · simpa using .pre hcore hpre
    · exact .preBuild hcore hpre hbuild

/-- A marked part holds the identifiers of one rule if it holds those of another rule that says the
same about them. -/
lemma marked_iff {mark : Char} (hrules : ∀ identifier, identifier ⊆ cs →
    (P identifier ↔ Q identifier)) :
    Marked mark P cs ↔ ∃ parts, (∀ part ∈ parts, Q part) ∧ cs = Spelling.part mark parts := by
  constructor
  · rintro (rfl | ⟨identifiers, hidentifiers, rfl⟩)
    · exact ⟨[], by simp, rfl⟩
    · obtain ⟨parts, hne, hall, rfl⟩ := dotSeparated_iff.mp hidentifiers
      refine ⟨parts, fun part hpart => ?_, by rw [Spelling.part, if_neg hne]⟩
      have hsub : part ⊆ mark :: Text.joinWith ['.'] parts :=
        fun c hc => List.mem_cons_of_mem _ (Text.subset_joinWith hpart hc)
      exact (hrules part hsub).mp (hall part hpart)
  · rintro ⟨parts, hall, rfl⟩
    by_cases hne : parts = []
    · rw [hne]
      exact .inl rfl
    · rw [Spelling.part, if_neg hne] at hrules ⊢
      refine .inr ⟨_, dotSeparated_iff.mpr ⟨parts, hne, fun part hpart => ?_, rfl⟩, rfl⟩
      have hsub : part ⊆ mark :: Text.joinWith ['.'] parts :=
        fun c hc => List.mem_cons_of_mem _ (Text.subset_joinWith hpart hc)
      exact (hrules part hsub).mpr (hall part hpart)

/-- On ASCII texts a version core of the grammar is three numbers with dots between them. -/
lemma versionCore_iff (hascii : ∀ c ∈ cs, c.toNat < 128) : VersionCore cs ↔
    ∃ major minor patch, Number major ∧ Number minor ∧ Number patch ∧
      cs = major ++ '.' :: minor ++ '.' :: patch := by
  have hnumber {number : List Char} (hsub : ∀ d ∈ number, d ∈ cs) :
      NumericIdentifier number ↔ Number number :=
    numericIdentifier_iff fun d hd => hascii d (hsub d hd)
  constructor
  · intro h
    cases h with
    | @numbers major minor patch first second third =>
      have hmajor := (hnumber fun d hd => by simp [hd]).mp first
      have hminor := (hnumber fun d hd => by simp [hd]).mp second
      have hpatch := (hnumber fun d hd => by simp [hd]).mp third
      exact ⟨major, minor, patch, hmajor, hminor, hpatch, rfl⟩
  · rintro ⟨major, minor, patch, hmajor, hminor, hpatch, rfl⟩
    have first := (hnumber fun d hd => by simp [hd]).mpr hmajor
    have second := (hnumber fun d hd => by simp [hd]).mpr hminor
    have third := (hnumber fun d hd => by simp [hd]).mpr hpatch
    exact .numbers first second third

/-- **On ASCII texts the grammar of this library is the published one.** -/
theorem validSemver_iff (hascii : ∀ c ∈ cs, c.toNat < 128) :
    ValidSemver cs ↔ ∃ w : Spelling, w.Valid ∧ w.chars = cs := by
  rw [validSemver_iff_marked]
  constructor
  · rintro ⟨core, pre, build, hcore, hpre, hbuild, rfl⟩
    have hrules (identifier : List Char) (hsub : identifier ⊆ pre) :
        PreReleaseIdentifier identifier ↔ PreIdentifier identifier :=
      preReleaseIdentifier_iff fun c hc => hascii c (by simp [hsub hc])
    obtain ⟨major, minor, patch, hmajor, hminor, hpatch, rfl⟩ :=
      (versionCore_iff fun c hc => hascii c (by simp only [List.mem_append, hc, true_or])).mp hcore
    obtain ⟨pres, hpres, rfl⟩ := (marked_iff hrules).mp hpre
    obtain ⟨builds, hbuilds, rfl⟩ := (marked_iff fun _ _ => buildIdentifier_iff).mp hbuild
    exact ⟨⟨major, minor, patch, pres, builds⟩, ⟨hmajor, hminor, hpatch, hpres, hbuilds⟩, rfl⟩
  · rintro ⟨w, hvalid, rfl⟩
    have hrules (identifier : List Char) (hsub : identifier ⊆ Spelling.part '-' w.pre) :
        PreReleaseIdentifier identifier ↔ PreIdentifier identifier :=
      preReleaseIdentifier_iff fun c hc => hascii c (by simp [Spelling.chars, hsub hc])
    refine ⟨w.core, Spelling.part '-' w.pre, Spelling.part '+' w.build, ?_, ?_, ?_, rfl⟩
    · refine (versionCore_iff fun c hc => hascii c (by simp [Spelling.chars, hc])).mpr ?_
      exact ⟨w.major, w.minor, w.patch, hvalid.major, hvalid.minor, hvalid.patch, rfl⟩
    · exact (marked_iff hrules).mpr ⟨w.pre, hvalid.pre, rfl⟩
    · exact (marked_iff fun _ _ => buildIdentifier_iff).mpr ⟨w.build, hvalid.build, rfl⟩

end CrateGate.Version.Bnf
