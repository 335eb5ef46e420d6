/-!
# Texts with halves of surrogate pairs

A settings document can name a code from U+D800 to U+DFFF by an escape. Such a code is half of a
pair of UTF-16 units and no character, but the text keeps it. So a text of the settings is a list of
letters, each a character or such a half; a text of characters alone is one of them (`ofString`).

* `Letter.code_inj`: a letter is known by its code, so no half is taken for a character.
* Texts are ordered by the codes of their letters, as they stand.
* `string?_eq_some_iff`: a text is that of some characters if and only if no half is in it.
-/

namespace CrateGate

/-- A place in a text: a character, or half of a surrogate pair by its distance from U+D800. -/
inductive Letter
  | char (c : Char)
  | half (n : Fin 0x800)
deriving DecidableEq, Repr

namespace Letter

instance : Coe Char Letter :=
  ⟨char⟩

/-- The code of a letter. -/
def code : Letter → Nat
  | char c => c.toNat
  | half n => 0xD800 + n

/-- The letter of a code; beyond the last code there is none. -/
def ofCode? (n : Nat) : Option Letter :=
  if h : 0xD800 ≤ n ∧ n < 0xE000 then some (half ⟨n - 0xD800, by omega⟩)
  else if n < 0x110000 then some (char (Char.ofNat n))
  else none

/-- The character that a letter is, if it is one. -/
def char? : Letter → Option Char
  | char c => some c
  | half _ => none

/-- The code of a half lies where there are no characters, so a letter is known by its code. -/
theorem code_inj {a b : Letter} : a.code = b.code ↔ a = b := by
  refine ⟨fun h => ?_, fun h => h ▸ rfl⟩
  have hgap (c : Char) (n : Fin 0x800) : c.toNat ≠ 0xD800 + n := by
    have hvalid : c.toNat < 0xD800 ∨ 0xDFFF < c.toNat ∧ c.toNat < 0x110000 := c.valid
    have hn := n.isLt
    omega
  cases a with
  | char c =>
    cases b with
    | char d => exact congrArg char (Char.toNat_inj.mp h)
    | half n => exact absurd h (hgap c n)
  | half m =>
    cases b with
    | char d => exact absurd h.symm (hgap d m)
    | half n => exact congrArg half (Fin.ext (Nat.add_left_cancel h))

/-! ## Order -/

instance : LT Letter :=
  ⟨fun a b => a.code < b.code⟩

instance : LE Letter :=
  ⟨fun a b => a.code ≤ b.code⟩

instance : DecidableLT Letter := fun a b =>
  inferInstanceAs (Decidable (a.code < b.code))

instance : DecidableLE Letter := fun a b =>
  inferInstanceAs (Decidable (a.code ≤ b.code))

instance : Std.IsLinearOrder Letter where
  le_refl a := Nat.le_refl a.code
  le_trans _ _ _ h h' := Nat.le_trans h h'
  le_antisymm _ _ h h' := code_inj.mp (Nat.le_antisymm h h')
  le_total a b := Nat.le_total a.code b.code

instance : Std.LawfulOrderLT Letter where
  lt_iff _ _ := Nat.lt_iff_le_and_not_ge

end Letter

/-- A text, letter by letter. -/
@[ext] structure Text where
  /-- The letters from left to right. -/
  letters : List Letter
deriving DecidableEq, Repr

namespace Text

/-- The text of some characters. -/
@[coe] def ofString (s : String) : Text :=
  ⟨s.toList.map .char⟩

instance : Coe String Text :=
  ⟨ofString⟩

instance : Inhabited Text :=
  ⟨""⟩

/-- The characters of a text, if there is no half in it. -/
def string? (t : Text) : Option String :=
  (t.letters.mapM Letter.char?).map String.ofList

instance : Append Text :=
  ⟨fun t u => ⟨t.letters ++ u.letters⟩⟩

/-- Texts one after another, with a separator between every two of them. -/
def intercalate (separator : Text) (texts : List Text) : Text :=
  ⟨List.intercalate separator.letters (texts.map letters)⟩

/-- The letters of a text of characters are those characters. -/
@[simp] theorem letters_ofString (s : String) : (ofString s).letters = s.toList.map .char := rfl

/-- Texts of characters are equal only where the characters are. -/
@[simp] theorem ofString_inj {s t : String} : (s : Text) = t ↔ s = t := by
  rw [Text.ext_iff, letters_ofString, letters_ofString,
    List.map_inj_right fun _ _ h => Letter.char.inj h, String.toList_inj]

/-- It makes no difference whether characters are put together before they are taken for a text. -/
@[simp] theorem ofString_append (s t : String) : ((s ++ t : String) : Text) = ↑s ++ ↑t := by
  refine Text.ext ?_
  rw [letters_ofString, String.toList_append, List.map_append]
  rfl

/-- Letters have characters throughout if and only if they are those characters. -/
theorem mapM_char?_eq_some_iff {letters : List Letter} {cs : List Char} :
    letters.mapM Letter.char? = some cs ↔ letters = cs.map .char := by
  induction letters generalizing cs with
  | nil => cases cs <;> simp
  | cons a letters ih =>
    rw [List.mapM_cons]
    simp only [bind, pure, Option.bind_eq_some_iff, Option.some.injEq, ih]
    constructor
    · rintro ⟨c, hc, rest, rfl, rfl⟩
      cases a with
      | char d => rw [Option.some.inj hc, List.map_cons]
      | half n => cases hc
    · intro h
      cases cs with
      | nil => cases h
      | cons c rest =>
        obtain ⟨rfl, rfl⟩ := List.cons.inj h
        exact ⟨c, rfl, rest, rfl, rfl⟩

/-- A text is that of some characters if and only if no half is in it. -/
theorem string?_eq_some_iff {t : Text} {s : String} : t.string? = some s ↔ t = s := by
  rw [string?, Option.map_eq_some_iff]
  constructor
  · rintro ⟨cs, hcs, rfl⟩
    refine Text.ext ?_
    rw [mapM_char?_eq_some_iff.mp hcs, letters_ofString, String.toList_ofList]
  · rintro rfl
    exact ⟨s.toList, mapM_char?_eq_some_iff.mpr rfl, String.ofList_toList⟩

/-- A text that was made of characters is read back as those characters, since no half is in it. -/
@[simp] theorem string?_ofString (s : String) : (s : Text).string? = some s :=
  string?_eq_some_iff.mpr rfl

/-! ## Order -/

instance : LT Text :=
  ⟨fun t u => t.letters < u.letters⟩

instance : LE Text :=
  ⟨fun t u => ¬u.letters < t.letters⟩

instance : DecidableLT Text := fun t u =>
  inferInstanceAs (Decidable (t.letters < u.letters))

instance : Std.IsLinearOrder Text where
  le_refl t := List.lt_irrefl t.letters
  le_trans _ _ _ h h' := List.le_trans h h'
  le_antisymm _ _ h h' := Text.ext (List.le_antisymm h h')
  le_total t u := List.le_total t.letters u.letters

instance : Std.LawfulOrderLT Text where
  lt_iff t u := by
    refine ⟨fun h => ⟨fun h' => ?_, fun h' => h' h⟩, fun h => Classical.not_not.1 h.2⟩
    exact List.lt_irrefl t.letters (List.lt_trans h h')

end Text

end CrateGate
