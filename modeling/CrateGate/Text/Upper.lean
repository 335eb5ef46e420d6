import CrateGate.Text.Letter

/-!
# Upper case

Upper case as far as it ends in ASCII letters. Besides `a` to `z` there are ten letters whose
upper case is written in ASCII: the dotless i, the long s, the sharp s and the Latin ligatures.
Every other letter keeps out of ASCII in either case, so it is left as it is.
-/

namespace CrateGate.Text

/-- The upper case of one character, which may be up to three. -/
def upperChar (c : Char) : List Char :=
  match c with
  | 'ß' => ['S', 'S']
  | 'ı' => ['I']
  | 'ſ' => ['S']
  | 'ﬀ' => ['F', 'F']
  | 'ﬁ' => ['F', 'I']
  | 'ﬂ' => ['F', 'L']
  | 'ﬃ' => ['F', 'F', 'I']
  | 'ﬄ' => ['F', 'F', 'L']
  | 'ﬅ' => ['S', 'T']
  | 'ﬆ' => ['S', 'T']
  | c => [c.toUpper]

/-- The upper case of one letter; a half of a surrogate pair stays as it is. -/
def upperLetter : Letter → List Letter
  | .char c => (upperChar c).map .char
  | .half n => [.half n]

/-- The text in upper case. -/
def upper (t : Text) : Text :=
  ⟨t.letters.flatMap upperLetter⟩

end CrateGate.Text
