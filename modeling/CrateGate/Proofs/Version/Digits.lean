import CrateGate.Proofs.Version.Render

/-!
# Versions as they were written

A text may write the numbers of a version with decimal digits of any script after the first one,
and they are rendered with ASCII digits. That is the only difference between a text and the version
that was read from it: the other parts stand as they were written (`render_version`). So a text is
rendered as it was written if and only if its numbers are written with ASCII digits
(`render_of_parse`), which is so in every text of ASCII characters.
-/

namespace CrateGate

namespace Text

variable {n : Nat} {c : Char} {cs : List Char}

/-- The ASCII digit of the same value. -/
def plainDigit (c : Char) : Char :=
  (digitValue c).digitChar

/-- The plain digit of a character is a digit of ASCII: it is counted up from the zero, by nine at
most. -/
lemma isDigit_plainDigit (c : Char) : (plainDigit c).isDigit = true := by
  have hdigits : ∀ d < 10, d.digitChar.isDigit = true := by decide
  exact hdigits _ (Nat.lt_succ_of_le (digitValue_le c))

/-- The ASCII digits are those that stay as they are. -/
lemma plainDigit_eq_self_iff : plainDigit c = c ↔ c.isDigit = true := by
  constructor
  · intro h
    rw [← h]
    exact isDigit_plainDigit c
  · intro h
    obtain ⟨hlow, hhigh⟩ := isDigit_ascii_iff.mp h
    rw [plainDigit, digitValue_of_isDigit h, ← Char.toNat_inj,
      Nat.toNat_digitChar_of_lt_ten (by omega)]
    omega

/-- Digits after those of a positive number. -/
lemma toDigits_append_map_plainDigit (hpos : 0 < n) :
    Nat.toDigits 10 n ++ cs.map plainDigit =
      Nat.toDigits 10 (cs.foldl (fun n c => 10 * n + digitValue c) n) := by
  induction cs generalizing n with
  | nil => exact List.append_nil _
  | cons c cs ih =>
    have hvalue : digitValue c < 10 := Nat.lt_succ_of_le (digitValue_le c)
    have hlast : Nat.toDigits 10 n ++ [plainDigit c] = Nat.toDigits 10 (10 * n + digitValue c) := by
      rw [plainDigit, ← Nat.toDigits_append_toDigits (by decide) hpos hvalue,
        Nat.toDigits_of_lt_base hvalue]
    calc Nat.toDigits 10 n ++ (c :: cs).map plainDigit
        = (Nat.toDigits 10 n ++ [plainDigit c]) ++ cs.map plainDigit := by simp
      _ = Nat.toDigits 10 (10 * n + digitValue c) ++ cs.map plainDigit := by rw [hlast]
      _ = Nat.toDigits 10 (cs.foldl (fun n c => 10 * n + digitValue c) (10 * n + digitValue c)) :=
          ih (by omega)

end Text

namespace Version

open Spelling

variable {s : String} {v : Version} {cs : List Char} {w : Spelling}

/-! ## Numbers -/

/-- **The value of a number has the digits of the number**, in ASCII. -/
lemma Number.toDigits_decimalValue (h : Number cs) :
    Nat.toDigits 10 (Text.decimalValue cs) = cs.map Text.plainDigit := by
  cases h with
  | zero => rfl
  | @positive c rest first digits =>
    obtain ⟨hne, hdigit⟩ := positive_iff.mp first
    have hpos : 0 < Text.digitValue c := by
      have hlow : 49 ≤ c.toNat := first.1
      rw [Text.digitValue_of_isDigit hdigit]
      omega
    have hvalue : Text.digitValue c < 10 := Nat.lt_succ_of_le (Text.digitValue_le c)
    have hfold : Text.decimalValue (c :: rest) =
        rest.foldl (fun n c => 10 * n + Text.digitValue c) (Text.digitValue c) := by
      rw [Text.decimalValue, List.foldl_cons, Nat.mul_zero, Nat.zero_add]
    rw [hfold, ← Text.toDigits_append_map_plainDigit hpos, Nat.toDigits_of_lt_base hvalue]
    rfl

/-- A number in any digits is a number in plain ones: a zero before it would be one in either. -/
lemma Number.map_plainDigit (h : Number cs) : Number (cs.map Text.plainDigit) := by
  rw [← h.toDigits_decimalValue]
  exact number_toDigits _

/-! ## Spellings -/

/-- The same spelling with ASCII digits in its numbers. -/
def Spelling.plain (w : Spelling) : Spelling :=
  { w with
    major := w.major.map Text.plainDigit
    minor := w.minor.map Text.plainDigit
    patch := w.patch.map Text.plainDigit }

/-- The numbers of a spelling are written with ASCII digits. -/
def Spelling.Plain (w : Spelling) : Prop :=
  ∀ number ∈ [w.major, w.minor, w.patch], ∀ c ∈ number, c.isDigit = true

/-- A valid spelling with its three numbers in plain digits is valid; the other parts are
untouched. -/
lemma Spelling.Valid.plain (h : w.Valid) : w.plain.Valid where
  major := h.major.map_plainDigit
  minor := h.minor.map_plainDigit
  patch := h.patch.map_plainDigit
  pre := h.pre
  build := h.build

/-- A spelling is the plain one of itself if and only if its numbers are in digits of ASCII. -/
lemma Spelling.plain_eq_self_iff : w.plain = w ↔ w.Plain := by
  have hnumber (cs : List Char) :
      cs.map Text.plainDigit = cs ↔ ∀ c ∈ cs, c.isDigit = true := by
    calc cs.map Text.plainDigit = cs
        ↔ cs.map Text.plainDigit = cs.map id := by rw [List.map_id]
      _ ↔ ∀ c ∈ cs, Text.plainDigit c = c := List.map_inj_left
      _ ↔ ∀ c ∈ cs, c.isDigit = true := forall₂_congr fun c _ => Text.plainDigit_eq_self_iff
  cases w
  simp [Spelling.plain, Spelling.Plain, hnumber]

/-- In a text of ASCII characters the numbers are written with ASCII digits. -/
lemma Spelling.Valid.plain_of_ascii (h : w.Valid) (hascii : ∀ c ∈ w.chars, c.toNat < 128) :
    w.Plain := by
  intro number hnumber c hc
  have hrule : Number number := by
    simp only [List.mem_cons, List.not_mem_nil, or_false] at hnumber
    rcases hnumber with rfl | rfl | rfl
    · exact h.major
    · exact h.minor
    · exact h.patch
  have hmem : c ∈ w.chars := by
    simp only [List.mem_cons, List.not_mem_nil, or_false] at hnumber
    simp only [Spelling.chars, Spelling.core, List.mem_append, List.mem_cons]
    rcases hnumber with rfl | rfl | rfl <;> simp [hc]
  rw [← Text.isDigit_eq_of_lt (hascii c hmem)]
  exact hrule.isDigit hc

/-! ## Rendering what was read -/

/-- **What is rendered is the spelling that was read**, with ASCII digits in its numbers. -/
lemma Spelling.Valid.render_version (h : w.Valid) : w.version.render.toList = w.plain.chars := by
  have hnumber {cs : List Char} (hcs : Number cs) :
      (toString (Text.decimalValue cs : Int)).toList = cs.map Text.plainDigit := by
    rw [toList_toString (Int.natCast_nonneg _), Int.toNat_natCast, hcs.toDigits_decimalValue]
  have hpre : (marked "-" (String.ofList (Text.joinWith ['.'] w.pre))).toList = part '-' w.pre :=
    toList_marked rfl (fun cs hcs => (h.pre cs hcs).ne_nil) String.toList_ofList
  have hbuild :
      (marked "+" (String.ofList (Text.joinWith ['.'] w.build))).toList = part '+' w.build :=
    toList_marked rfl (fun cs hcs => (h.build cs hcs).nonempty) String.toList_ofList
  simp only [render, Version.core, Spelling.version, String.toList_append, hpre, hbuild,
    hnumber h.major, hnumber h.minor, hnumber h.patch, Spelling.chars, Spelling.core,
    Spelling.plain]
  simp

/-- **Rendering what was read.** It gives the text back with ASCII digits in the three numbers, so
it gives the text back as it was if and only if its numbers are written with ASCII digits, as they
are in every text of ASCII characters. -/
theorem render_of_parse (h : parse s = .ok v) :
    (∃ w : Spelling, w.Valid ∧ w.chars = s.toList ∧ v.render.toList = w.plain.chars ∧
      (v.render = s ↔ w.Plain)) ∧
    ((∀ c ∈ s.toList, c.toNat < 128) → v.render = s) := by
  obtain ⟨w, hvalid, -, hchars, rfl⟩ := exists_spelling_of_parse h
  have hsame : w.version.render = s ↔ w.Plain := by
    rw [← String.toList_inj, hvalid.render_version, ← hchars, ← Spelling.plain_eq_self_iff]
    exact ⟨hvalid.plain.eq_of_chars_eq hvalid, congrArg Spelling.chars⟩
  refine ⟨⟨w, hvalid, hchars, hvalid.render_version, hsame⟩, fun hascii => hsame.mpr ?_⟩
  exact hvalid.plain_of_ascii (hchars ▸ hascii)

/-- Digits of another script stay as they are in an identifier, and nowhere else. -/
theorem render_of_parse_twoScripts :
    let s := "1٣.0.10-0٤a+007"
    let v : Version := ⟨13, 0, 10, "0٤a", "007"⟩
    parse s = .ok v ∧ v.render = "13.0.10-0٤a+007" ∧
      ∃ w : Spelling, w.Valid ∧ w.chars = s.toList ∧ v.render.toList = w.plain.chars ∧
        (v.render = s ↔ w.Plain) :=
  ⟨rfl, rfl, (render_of_parse (s := "1٣.0.10-0٤a+007") rfl).1⟩

/-- Not every text that is read is rendered as it was written. -/
theorem not_render_parse : ¬∀ s v, parse s = .ok v → v.render = s := by
  intro h
  have hrender : (⟨13, 0, 0, "", ""⟩ : Version).render = "1٣.0.0" := h "1٣.0.0" _ rfl
  exact absurd hrender (by decide)

end Version

end CrateGate
