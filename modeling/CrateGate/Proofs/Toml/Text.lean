import CrateGate.Proofs.Version.Grammar
import CrateGate.Toml.Text
import Mathlib.Data.List.TakeDrop

/-!
# Texts and keys as they are written

Characters that stand for themselves may be put between double quotes as they are, and what is read
is what was put there (`readText?_quoted`). A key of letters, digits, hyphens and underscores needs
no quotes (`readKey_bare`), whatever it looks like otherwise.
-/

namespace CrateGate.Toml

variable {c : Char} {cs rest : List Char} {fuel : Nat} {key : String}

/-! ## Texts -/

/-- A character stands for itself in a basic text: it ends no text, starts no escape, and is no
control character. -/
structure Plain (c : Char) : Prop where
  quote : c ≠ '"'
  backslash : c ≠ '\\'
  control : isControl c = false

/-- A text can be put between double quotes as it is. -/
structure Quotable (s : String) : Prop where
  chars : ∀ c ∈ s.toList, Plain c
  nonempty : s ≠ ""

/-- A text in double quotes. -/
def quoted (s : String) : List Char :=
  '"' :: s.toList ++ ['"']

/-- Plain characters are read up to the closing quote. -/
lemma readBasic_plain (hplain : ∀ c ∈ cs, Plain c) (hfuel : cs.length < fuel) :
    readBasic fuel (cs ++ '"' :: rest) = .ok (cs, rest) := by
  induction cs generalizing fuel with
  | nil =>
    obtain ⟨fuel, rfl⟩ := Nat.exists_eq_succ_of_ne_zero (Nat.ne_zero_of_lt hfuel)
    rfl
  | cons c cs ih =>
    obtain ⟨fuel, rfl⟩ := Nat.exists_eq_succ_of_ne_zero (Nat.ne_zero_of_lt hfuel)
    obtain ⟨hc, hcs⟩ := List.forall_mem_cons.mp hplain
    rw [List.cons_append, readBasic, if_neg hc.quote, if_neg hc.backslash, hc.control,
      if_neg Bool.false_ne_true, ih hcs (Nat.lt_of_succ_lt_succ hfuel)]
    rfl

/-- **A quoted text is read as it stands in its quotes.** It must not be empty: two quotes may be
the start of three. -/
lemma readText?_quoted {s : String} (h : Quotable s) :
    readText? (quoted s ++ rest) = some (.ok (s.toList, rest)) := by
  obtain ⟨c, cs, hcs⟩ := List.exists_cons_of_ne_nil (mt String.toList_eq_nil_iff.mp h.nonempty)
  have hquoted : quoted s ++ rest = '"' :: c :: (cs ++ '"' :: rest) := by simp [quoted, hcs]
  have hbasic : readText? ('"' :: c :: (cs ++ '"' :: rest)) =
      some (readBasic ((c :: (cs ++ '"' :: rest)).length + 1) (c :: (cs ++ '"' :: rest))) := by
    unfold readText?
    split
    · next heq =>
      have hc : Plain c := h.chars c (hcs ▸ List.mem_cons_self)
      exact absurd (List.cons.inj (List.cons.inj heq).2).1 hc.quote
    · next heq => cases heq
    · next heq => rw [← (List.cons.inj heq).2]
    · next heq => cases heq
    · next hnone _ => exact (hnone _ rfl).elim
  have hlength : (c :: cs).length < (c :: (cs ++ '"' :: rest)).length + 1 := by
    simp only [List.length_cons, List.length_append]
    omega
  rw [hquoted, hbasic, hcs]
  exact congrArg some (readBasic_plain (hcs ▸ h.chars) hlength)

/-! ## Keys -/

/-- A key that needs no quotes: letters, digits, hyphens and underscores, one at least. -/
structure BareKey (key : String) : Prop where
  nonempty : key ≠ ""
  chars : ∀ c ∈ key.toList, isKeyChar c = true

/-- A text that is not empty and has characters of keys only is a bare key. -/
lemma BareKey.of_all (hne : key ≠ "") (h : key.toList.all isKeyChar = true) : BareKey key :=
  ⟨hne, List.all_eq_true.mp h⟩

/-- A character of keys is a letter or a digit of ASCII, a hyphen or an underscore. -/
lemma isKeyChar_iff : isKeyChar c = true ↔ c.isAlphanum = true ∨ c = '-' ∨ c = '_' := by
  simp [isKeyChar, Text.isAlphanumeric, Char.isAlphanum, or_assoc]

/-- Characters of keys lie between the hyphen and the last small letter, so none is a blank, a
control character or beyond ASCII. -/
lemma toNat_of_isKeyChar (h : isKeyChar c = true) : 45 ≤ c.toNat ∧ c.toNat < 123 := by
  rw [isKeyChar_iff, Char.isAlphanum, Bool.or_eq_true, Text.isAlpha_iff,
    Text.isDigit_ascii_iff] at h
  rcases h with h | rfl | rfl
  · omega
  · decide
  · decide

/-- What is no character of keys differs from every one that is. -/
lemma ne_of_isKeyChar {mark : Char} (h : isKeyChar c = true) (hmark : isKeyChar mark = false) :
    c ≠ mark := by
  rintro rfl
  rw [h] at hmark
  cases hmark

/-- The characters of keys stand for themselves in a text, too. -/
lemma plain_of_isKeyChar (h : isKeyChar c = true) : Plain c := by
  obtain ⟨hlow, hhigh⟩ := toNat_of_isKeyChar h
  refine ⟨ne_of_isKeyChar h (by decide), ne_of_isKeyChar h (by decide), ?_⟩
  rw [isControl, decide_eq_false (p := c.toNat < 32) (by omega),
    decide_eq_false (p := c.toNat = 127) (by omega)]
  rfl

/-- No character of keys is a blank or a tabulator. -/
lemma isSpace_of_isKeyChar (h : isKeyChar c = true) : isSpace c = false := by
  rw [isSpace, Bool.or_eq_false_iff, decide_eq_false_iff_not, decide_eq_false_iff_not]
  exact ⟨ne_of_isKeyChar h (by decide), ne_of_isKeyChar h (by decide)⟩

/-- No character of keys is white space of any sort. -/
lemma isBlank_of_isKeyChar (h : isKeyChar c = true) : Text.isBlank c = false := by
  obtain ⟨hlow, hhigh⟩ := toNat_of_isKeyChar h
  simp only [Text.isBlank, Bool.or_eq_false_iff, Bool.and_eq_false_iff, decide_eq_false_iff_not,
    beq_eq_false_iff_ne]
  omega

/-- A bare key can be quoted as it stands: nothing in it needs an escape. -/
lemma BareKey.quotable (h : BareKey key) : Quotable key :=
  ⟨fun c hc => plain_of_isKeyChar (h.chars c hc), h.nonempty⟩

/-- A bare key has a first character, and that one is of keys. -/
lemma BareKey.exists_cons (h : BareKey key) :
    ∃ c cs, key.toList = c :: cs ∧ isKeyChar c = true := by
  obtain ⟨c, cs, heq⟩ := List.exists_cons_of_ne_nil
    (mt String.toList_eq_nil_iff.mp h.nonempty)
  exact ⟨c, cs, heq, h.chars c (heq ▸ List.mem_cons_self)⟩

/-- No blanks stand before a key. -/
lemma BareKey.skipSpaces_append (h : BareKey key) (rest : List Char) :
    skipSpaces (key.toList ++ rest) = key.toList ++ rest := by
  obtain ⟨c, cs, hcs, hc⟩ := h.exists_cons
  rw [hcs, List.cons_append, skipSpaces, List.dropWhile_cons_of_neg]
  rw [isSpace_of_isKeyChar hc]
  exact Bool.false_ne_true

/-- What is no character of keys does not occur in a bare key. -/
lemma BareKey.notMem (h : BareKey key) (hc : isKeyChar c = false) : c ∉ key.toList := by
  intro hmem
  rw [h.chars c hmem] at hc
  cases hc

/-- A key without quotes is read up to the first character that it cannot hold. -/
lemma readKeyPart_bare (hkey : BareKey key) (hc : isKeyChar c = false) :
    readKeyPart (key.toList ++ c :: rest) = .ok (key, c :: rest) := by
  obtain ⟨first, cs, hcs, hfirst⟩ := hkey.exists_cons
  have hspan : (key.toList ++ c :: rest).span isKeyChar = (key.toList, c :: rest) := by
    rw [List.span_eq_takeWhile_dropWhile, List.takeWhile_append_of_pos hkey.chars,
      List.dropWhile_append_of_pos hkey.chars]
    simp [hc]
  have hread : readKeyPart (first :: (cs ++ c :: rest)) =
      .ok (String.ofList ((first :: (cs ++ c :: rest)).span isKeyChar).1,
        ((first :: (cs ++ c :: rest)).span isKeyChar).2) := by
    rw [readKeyPart, if_pos hfirst]
  rw [hcs, List.cons_append] at hspan ⊢
  rw [hread, hspan, ← hcs, String.ofList_toList]

/-- **A key without quotes is read as it stands**, up to a character that it cannot hold, and the
blanks there are skipped. -/
lemma readKey_bare (hkey : BareKey key) (hc : isKeyChar c = false)
    (hdot : ∀ after, skipSpaces (c :: rest) ≠ '.' :: after) :
    readKey (key.toList ++ c :: rest) = .ok ([key], skipSpaces (c :: rest)) := by
  rw [readKey, readKeyParts, readKeyPart_bare hkey hc]
  simp only [bind, Except.bind]

end CrateGate.Toml
