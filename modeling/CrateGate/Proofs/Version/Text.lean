import CrateGate.Proofs.Version.Bnf

/-!
# Reading versions is reading their grammar

The reader cuts a text at its first plus sign and before that at the first hyphen, and splits what
is left at the dots. On a text that the grammar makes this finds the parts that it was made of,
since none of them holds a character that ends it (`partsOf_chars`); and parts that pass the checks
are a spelling of the text (`exists_spelling`). So the reader accepts the grammar and nothing else,
and no text has two spellings (`parse_outcome`).
-/

namespace CrateGate.Version

open Spelling

variable {mark c : Char} {cs before after : List Char} {identifiers : List (List Char)}
  {w w' : Spelling}

/-! ## Characters of the parts -/

/-- All characters of a number are digits. -/
lemma Number.isDigit (h : Number cs) (hc : c ∈ cs) : Text.isDigit c = true := by
  cases h with
  | zero =>
    rw [List.mem_singleton.mp hc]
    rfl
  | positive first digits =>
    rcases List.mem_cons.mp hc with rfl | hc
    · rw [Text.isDigit, Text.digitValue?_of_isDigit (positive_iff.mp first).2]
      rfl
    · exact digits c hc

/-- The characters of a pre-release identifier are digits or identifier characters. -/
lemma PreIdentifier.isDigit_or_identifierChar (h : PreIdentifier cs) (hc : c ∈ cs) :
    Text.isDigit c = true ∨ IdentifierChar c := by
  cases h with
  | number number => exact .inl (number.isDigit hc)
  | alphanumeric digits mark chars =>
    rcases List.mem_append.mp hc with hc | hc
    · exact .inl (digits c hc)
    · rcases List.mem_cons.mp hc with rfl | hc
      · exact .inr mark.identifierChar
      · exact .inr (chars c hc)

/-- A dot and a plus sign are in no identifier of either kind. -/
lemma PreIdentifier.notMem (h : PreIdentifier cs) (hc : c = '.' ∨ c = '+') : c ∉ cs := by
  intro hmem
  rcases h.isDigit_or_identifierChar hmem with hdigit | hchar
  · rcases hc with rfl | rfl <;> exact absurd hdigit (by decide)
  · rcases hc with rfl | rfl <;> exact absurd hchar (by unfold IdentifierChar; decide)

/-- There is no dot in a build identifier, so identifiers with dots between them can be told apart
again. -/
lemma BuildIdentifier.dot_notMem (h : BuildIdentifier cs) : '.' ∉ cs := by
  intro hmem
  exact absurd (h.chars '.' hmem) (by unfold IdentifierChar; decide)

/-- What is no digit does not occur in a number. -/
lemma Number.notMem (h : Number cs) (hc : Text.isDigit c = false) : c ∉ cs := by
  intro hmem
  rw [h.isDigit hmem] at hc
  cases hc

/-- The numbers with their dots hold no other mark. -/
lemma Spelling.Valid.notMem_core (h : w.Valid) (hdigit : Text.isDigit c = false) (hdot : c ≠ '.') :
    c ∉ w.core := by
  unfold Spelling.core
  simp only [List.mem_append, List.mem_cons, not_or]
  exact ⟨⟨h.major.notMem hdigit, hdot, h.minor.notMem hdigit⟩, hdot, h.patch.notMem hdigit⟩

/-- A character that is neither the mark, nor a dot, nor in an identifier does not occur in a marked
part. -/
lemma notMem_part (hmark : c ≠ mark) (hdot : c ≠ '.') (h : ∀ cs ∈ identifiers, c ∉ cs) :
    c ∉ part mark identifiers := by
  unfold part
  split
  · exact List.not_mem_nil
  · rw [List.mem_cons, not_or]
    refine ⟨hmark, fun hmem => ?_⟩
    rcases Text.mem_joinWith hmem with hc | ⟨cs, hcs, hc⟩
    · exact hdot hc
    · exact h cs hcs hc

/-! ## Cutting -/

/-- Without the mark a text is not cut, and there is nothing behind. -/
lemma cut_of_notMem (h : mark ∉ cs) : cut mark cs = (cs, none) := by
  induction cs with
  | nil => rfl
  | cons c rest ih =>
    have hc : c ≠ mark := Ne.symm (List.ne_of_not_mem_cons h)
    rw [cut, if_neg hc, ih (List.not_mem_of_not_mem_cons h)]

/-- A text is cut at the first mark in it, and the mark itself is dropped. -/
lemma cut_append (h : mark ∉ before) :
    cut mark (before ++ mark :: after) = (before, some after) := by
  induction before with
  | nil => simp [cut]
  | cons c rest ih =>
    have hc : c ≠ mark := Ne.symm (List.ne_of_not_mem_cons h)
    rw [List.cons_append, cut, if_neg hc, ih (List.not_mem_of_not_mem_cons h)]

/-- The identifiers of an optional part; none if it is absent. -/
def identifiersOf : Option (List Char) → List (List Char)
  | none => []
  | some cs => Text.splitOn '.' cs

/-- An optional part that joins identifiers; absent if there are none. -/
def joined (identifiers : List (List Char)) : Option (List Char) :=
  if identifiers = [] then none else some (Text.joinWith ['.'] identifiers)

/-- Identifiers without dots that are joined by dots are split into the same identifiers again. -/
lemma identifiersOf_joined (h : ∀ cs ∈ identifiers, '.' ∉ cs) :
    identifiersOf (joined identifiers) = identifiers := by
  unfold joined
  split
  · next hnil => rw [hnil, identifiersOf]
  · next hne => exact Text.splitOn_joinWith hne h

/-- The text of identifiers is those identifiers with dots between them, and is empty if there are
none. -/
lemma getD_joined (identifiers : List (List Char)) :
    (joined identifiers).getD [] = Text.joinWith ['.'] identifiers := by
  unfold joined
  split
  · next hnil => rw [hnil]; rfl
  · rfl

/-- Cutting takes off a part behind its mark. -/
lemma cut_append_part (h : mark ∉ before) :
    cut mark (before ++ part mark identifiers) = (before, joined identifiers) := by
  unfold part joined
  split
  · rw [List.append_nil, cut_of_notMem h]
  · rw [cut_append h]

/-- Nothing is lost by cutting. -/
lemma cut_fst_append_part (mark : Char) (cs : List Char) :
    (cut mark cs).1 ++ part mark (identifiersOf (cut mark cs).2) = cs := by
  induction cs with
  | nil => rfl
  | cons c rest ih =>
    rw [cut]
    split
    · next hc =>
      have hne := Text.splitOn_ne_nil '.' rest
      rw [identifiersOf, part, if_neg hne, Text.joinWith_splitOn, hc, List.nil_append]
    · rw [List.cons_append, ih]

/-- A part that may be missing is valid if and only if every identifier in it is. -/
lemma optional_iff {valid : List Char → Bool} {o : Option (List Char)} :
    optional valid o = true ↔ ∀ cs ∈ identifiersOf o, valid cs = true := by
  cases o with
  | none => simp [optional, identifiersOf]
  | some cs => simp [optional, identifiersOf]

/-! ## Parts of a text -/

/-- **Of a text that the grammar makes the reader finds the parts.** -/
lemma partsOf_chars (h : w.Valid) :
    partsOf w.chars = ⟨[w.major, w.minor, w.patch], joined w.pre, joined w.build⟩ := by
  have hplus : '+' ∉ w.core ++ part '-' w.pre := by
    rw [List.mem_append, not_or]
    refine ⟨h.notMem_core (by decide) (by decide), notMem_part (by decide) (by decide) ?_⟩
    exact fun cs hcs => (h.pre cs hcs).notMem (.inr rfl)
  have hhyphen : '-' ∉ w.core := h.notMem_core (by decide) (by decide)
  have hdot {number : List Char} (hnumber : Number number) : '.' ∉ number :=
    hnumber.notMem (by decide)
  have hnumbers : Text.splitOn '.' w.core = [w.major, w.minor, w.patch] := by
    rw [Spelling.core, List.append_assoc, List.cons_append, Text.splitOn_append (hdot h.major),
      Text.splitOn_append (hdot h.minor), Text.splitOn_of_notMem (hdot h.patch)]
  unfold partsOf chars
  simp only [cut_append_part hplus, cut_append_part hhyphen, hnumbers]

/-- **No text has two spellings.** -/
theorem Spelling.Valid.eq_of_chars_eq (h : w.Valid) (h' : w'.Valid) (heq : w.chars = w'.chars) :
    w = w' := by
  have hparts := congrArg partsOf heq
  rw [partsOf_chars h, partsOf_chars h', Parts.mk.injEq] at hparts
  obtain ⟨hnumbers, hpre, hbuild⟩ := hparts
  have hpre' := congrArg identifiersOf hpre
  rw [identifiersOf_joined fun cs hcs => (h.pre cs hcs).notMem (.inl rfl),
    identifiersOf_joined fun cs hcs => (h'.pre cs hcs).notMem (.inl rfl)] at hpre'
  have hbuild' := congrArg identifiersOf hbuild
  rw [identifiersOf_joined fun cs hcs => (h.build cs hcs).dot_notMem,
    identifiersOf_joined fun cs hcs => (h'.build cs hcs).dot_notMem] at hbuild'
  cases w
  cases w'
  simp_all

/-- Parts that pass the checks spell the text. -/
lemma exists_spelling {major minor patch : List Char}
    (hnumbers : (partsOf cs).numbers = [major, minor, patch])
    (hmajor : isNumber major = true) (hminor : isNumber minor = true)
    (hpatch : isNumber patch = true) (hpre : optional isPreIdentifier (partsOf cs).pre = true)
    (hbuild : optional isBuildIdentifier (partsOf cs).build = true) :
    ∃ w : Spelling, w.Valid ∧ w.chars = cs := by
  rw [optional_iff] at hpre hbuild
  refine ⟨⟨major, minor, patch, identifiersOf (partsOf cs).pre, identifiersOf (partsOf cs).build⟩,
    ⟨isNumber_iff.mp hmajor, isNumber_iff.mp hminor, isNumber_iff.mp hpatch,
      fun id hid => isPreIdentifier_iff.mp (hpre id hid),
      fun id hid => isBuildIdentifier_iff.mp (hbuild id hid)⟩, ?_⟩
  have hcore : (cut '-' (cut '+' cs).1).1 = major ++ '.' :: minor ++ '.' :: patch := by
    rw [← Text.joinWith_splitOn '.' (cut '-' (cut '+' cs).1).1]
    change Text.joinWith ['.'] (partsOf cs).numbers = _
    rw [hnumbers]
    simp [Text.joinWith]
  calc chars _
      = (cut '-' (cut '+' cs).1).1 ++ part '-' (identifiersOf (cut '-' (cut '+' cs).1).2) ++
          part '+' (identifiersOf (cut '+' cs).2) := by rw [hcore]; rfl
    _ = (cut '+' cs).1 ++ part '+' (identifiersOf (cut '+' cs).2) := by
          rw [cut_fst_append_part]
    _ = cs := cut_fst_append_part '+' cs

/-! ## The reader -/

/-- A text that the grammar makes is read, as far as its numbers are computed. -/
lemma parseChars_chars (h : w.Valid) :
    parseChars w.chars =
      if [w.major, w.minor, w.patch].any (Text.digitLimit < ·.length) then .error .oversized
      else .ok w.version := by
  have hpre : optional isPreIdentifier (joined w.pre) = true := by
    rw [optional_iff, identifiersOf_joined fun cs hcs => (h.pre cs hcs).notMem (.inl rfl)]
    exact fun cs hcs => isPreIdentifier_iff.mpr (h.pre cs hcs)
  have hbuild : optional isBuildIdentifier (joined w.build) = true := by
    rw [optional_iff, identifiersOf_joined fun cs hcs => (h.build cs hcs).dot_notMem]
    exact fun cs hcs => isBuildIdentifier_iff.mpr (h.build cs hcs)
  unfold parseChars
  rw [partsOf_chars h]
  simp only [isNumber_iff.mpr h.major, isNumber_iff.mpr h.minor, isNumber_iff.mpr h.patch, hpre,
    hbuild, Bool.and_self, if_true, getD_joined]
  rfl

/-- A text that the grammar does not make is malformed, and no other text is. -/
lemma parseChars_eq_malformed_iff :
    parseChars cs = .error (.malformed (String.ofList cs)) ↔
      ¬∃ w : Spelling, w.Valid ∧ w.chars = cs := by
  constructor
  · rintro h ⟨w, hvalid, rfl⟩
    rw [parseChars_chars hvalid] at h
    split at h <;> cases h
  · intro hnone
    unfold parseChars
    simp only
    split
    · next major minor patch hnumbers =>
      rw [if_neg]
      intro hchecks
      simp only [Bool.and_eq_true] at hchecks
      obtain ⟨⟨⟨⟨hmajor, hminor⟩, hpatch⟩, hpre⟩, hbuild⟩ := hchecks
      exact hnone (exists_spelling hnumbers hmajor hminor hpatch hpre hbuild)
    · rfl

/-- A spelling is short if and only if none of its three numbers has more digits than can be
computed. -/
lemma short_iff : w.Short ↔
    [w.major, w.minor, w.patch].any (Text.digitLimit < ·.length) = false := by
  simp [Short]

/-- The version that is spelled is read. -/
lemma parse_eq_ok {s : String} (h : w.Valid) (hshort : w.Short) (hchars : w.chars = s.toList) :
    parse s = .ok w.version := by
  rw [parse, ← hchars, parseChars_chars h, if_neg]
  rw [Bool.not_eq_true]
  exact short_iff.mp hshort

/-- No number of a short text has more digits than are computed. -/
lemma Spelling.short_of_length_le (h : w.chars.length ≤ Text.digitLimit) : w.Short := by
  simp only [Spelling.chars, Spelling.core, List.length_append, List.length_cons] at h
  unfold Short
  simp only [List.forall_mem_cons, List.not_mem_nil, false_implies, implies_true, and_true]
  omega

/-- A text is malformed if and only if no valid spelling has its characters. -/
lemma parse_eq_malformed_iff {s : String} :
    parse s = .error (.malformed s) ↔ ¬∃ w : Spelling, w.Valid ∧ w.chars = s.toList := by
  rw [← parseChars_eq_malformed_iff, String.ofList_toList]
  rfl

/-- A text is not computed if it is spelled with a number that has too many digits. -/
lemma parse_eq_oversized_iff {s : String} :
    parse s = .error .oversized ↔ ∃ w : Spelling, w.Valid ∧ w.chars = s.toList ∧ ¬w.Short := by
  constructor
  · intro h
    by_cases hspelled : ∃ w : Spelling, w.Valid ∧ w.chars = s.toList
    · obtain ⟨w, hvalid, hchars⟩ := hspelled
      refine ⟨w, hvalid, hchars, fun hshort => ?_⟩
      rw [parse_eq_ok hvalid hshort hchars] at h
      cases h
    · rw [parse_eq_malformed_iff.mpr hspelled] at h
      cases h
  · rintro ⟨w, hvalid, hchars, hlong⟩
    rw [parse, ← hchars, parseChars_chars hvalid, if_pos]
    rw [short_iff, Bool.not_eq_false] at hlong
    exact hlong

/-- **What the reader makes of a text.** It finds a text malformed if and only if the grammar does
not make it. Otherwise there is one spelling, and the version that is spelled is read, unless one of
its numbers has more digits than are computed. On ASCII texts the grammar is the published one. -/
theorem parse_outcome (s : String) :
    (parse s = .error (.malformed s) ↔ ¬∃ w : Spelling, w.Valid ∧ w.chars = s.toList) ∧
    (∀ w : Spelling, w.Valid → w.chars = s.toList →
      (∀ w' : Spelling, w'.Valid → w'.chars = s.toList → w' = w) ∧
      (w.Short → parse s = .ok w.version) ∧
      (¬w.Short → parse s = .error .oversized)) ∧
    ((∀ c ∈ s.toList, c.toNat < 128) →
      ((∃ w : Spelling, w.Valid ∧ w.chars = s.toList) ↔ Bnf.ValidSemver s.toList)) := by
  refine ⟨parse_eq_malformed_iff, fun w hvalid hchars => ⟨fun w' hvalid' hchars' => ?_,
    fun hshort => parse_eq_ok hvalid hshort hchars, fun hlong => ?_⟩,
    fun hascii => (Bnf.validSemver_iff hascii).symm⟩
  · exact hvalid'.eq_of_chars_eq hvalid (hchars'.trans hchars.symm)
  · rw [parse, ← hchars, parseChars_chars hvalid, if_pos]
    rw [short_iff, Bool.not_eq_false] at hlong
    exact hlong

/-- Digits of any script count after the first, and a hyphen may stand in an identifier. -/
example : parse "1٣.0.0-0-a.7+-.01" = .ok ⟨13, 0, 0, "0-a.7", "-.01"⟩ := by
  rfl

end CrateGate.Version
