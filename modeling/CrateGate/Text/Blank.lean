import CrateGate.Text.Letter

/-!
# White space

Which characters are white space, and what is left of a text without it. The set is the one of
the Unicode standard together with the four separators U+001C to U+001F, which are white space by
their direction class. A zero-width space (U+200B) and a byte order mark (U+FEFF) are not in it.
-/

namespace CrateGate.Text

/-- White space: the blanks, line breaks and separators of Unicode. -/
def isBlank (c : Char) : Bool :=
  let n := c.toNat
  (9 ≤ n && n ≤ 13) || (28 ≤ n && n ≤ 32) || n == 0x85 || n == 0xA0 || n == 0x1680 ||
    (0x2000 ≤ n && n ≤ 0x200A) || n == 0x2028 || n == 0x2029 || n == 0x202F || n == 0x205F ||
    n == 0x3000

/-- A text without the white space before its first other character. -/
def stripLeft (cs : List Char) : List Char :=
  cs.dropWhile isBlank

/-- A text is blank if it holds white space only. -/
def allBlank (s : String) : Bool :=
  s.toList.all isBlank

/-- A text is not blank if and only if it has a character that is no white space. -/
theorem allBlank_eq_false_iff {s : String} :
    allBlank s = false ↔ ∃ c ∈ s.toList, isBlank c = false := by
  simp [allBlank]

variable {α : Type} [DecidableEq α]

/-- The parts of a text between the occurrences of `separator`: one more than there are
occurrences. -/
def splitOn (separator : α) : List α → List (List α)
  | [] => [[]]
  | c :: rest =>
    if c = separator then [] :: splitOn separator rest
    else
      match splitOn separator rest with
      | [] => [[c]]
      | part :: parts => (c :: part) :: parts

/-- The texts `parts` put one after another with `separator` between them. -/
def joinWith (separator : List α) : List (List α) → List α
  | [] => []
  | [part] => part
  | part :: next :: parts => part ++ separator ++ joinWith separator (next :: parts)

/-- There is a part even if the text is empty. -/
theorem splitOn_ne_nil (separator : α) (cs : List α) : splitOn separator cs ≠ [] := by
  cases cs with
  | nil => simp [splitOn]
  | cons c rest =>
    simp only [splitOn]
    split
    · simp
    · split <;> simp

/-- Splitting loses nothing: the parts with the separator between them are the text. -/
theorem joinWith_splitOn (separator : α) (cs : List α) :
    joinWith [separator] (splitOn separator cs) = cs := by
  induction cs with
  | nil => rfl
  | cons c rest ih =>
    have hne := splitOn_ne_nil separator rest
    simp only [splitOn]
    split
    · next h =>
      subst h
      cases hs : splitOn c rest with
      | nil => exact absurd hs hne
      | cons part parts => simpa [joinWith, hs] using ih
    · cases hs : splitOn separator rest with
      | nil => exact absurd hs hne
      | cons part parts =>
        cases parts with
        | nil => simpa [joinWith, hs] using ih
        | cons next parts => simpa [joinWith, hs] using ih

/-- Every `\r\n` and every other `\r` becomes `\n`. -/
def universalNewlines : List Char → List Char
  | [] => []
  | '\r' :: '\n' :: rest => '\n' :: universalNewlines rest
  | c :: rest => (if c = '\r' then '\n' else c) :: universalNewlines rest

/-- Every `\r\n` becomes `\n`; a carriage return elsewhere stays. -/
def joinLineEnds : List Char → List Char
  | [] => []
  | '\r' :: '\n' :: rest => '\n' :: joinLineEnds rest
  | c :: rest => c :: joinLineEnds rest

/-! ## Letters -/

/-- White space among letters; a half of a surrogate pair is none. -/
def isBlankLetter : Letter → Bool
  | .char c => isBlank c
  | .half _ => false

/-- The text without the white space at either end. -/
def stripped (t : Text) : Text :=
  ⟨((t.letters.dropWhile isBlankLetter).reverse.dropWhile isBlankLetter).reverse⟩

end CrateGate.Text
