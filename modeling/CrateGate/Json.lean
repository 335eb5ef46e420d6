import CrateGate.Text.Letter
import CrateGate.Text.Quoted

/-!
# JSON documents

The documents that the command line prints: indented by two blanks a level, in ASCII, with short
escapes where there are some, and with what lies outside the printable ASCII characters as UTF-16
units.
-/

namespace CrateGate

/-- A JSON document, as far as reports need it. -/
inductive Json
  | text (t : Text)
  | number (n : Nat)
  | list (items : List Json)
  | object (members : List (String × Json))

namespace Json

/-- A UTF-16 unit as an escape. -/
def unitEscape (n : Nat) : List Char :=
  '\\' :: 'u' :: Text.hexDigits 4 n

/-- A character inside a text. -/
def escapedChar (c : Char) : List Char :=
  match c with
  | '"' => ['\\', '"']
  | '\\' => ['\\', '\\']
  | '\n' => ['\\', 'n']
  | '\r' => ['\\', 'r']
  | '\t' => ['\\', 't']
  | '\x0c' => ['\\', 'f']
  | '\x08' => ['\\', 'b']
  | c =>
    let n := c.toNat
    if 0x20 ≤ n ∧ n < 0x7F then [c]
    else if n < 0x10000 then unitEscape n
    else
      unitEscape (0xD800 + (n - 0x10000) / 0x400) ++ unitEscape (0xDC00 + (n - 0x10000) % 0x400)

/-- A letter inside a text; a half of a surrogate pair is a unit by itself. -/
def escapedLetter : Letter → List Char
  | .char c => escapedChar c
  | .half n => unitEscape (Letter.half n).code

/-- A text in quotes. -/
def quotedText (t : Text) : String :=
  String.ofList ('"' :: t.letters.flatMap escapedLetter ++ ['"'])

/-- A line break and the indentation of a level. -/
def newline (level : Nat) : String :=
  String.ofList ('\n' :: List.replicate (2 * level) ' ')

mutual

/-- A document that begins at some level of indentation. -/
def render (level : Nat) : Json → String
  | text t => quotedText t
  | number n => toString n
  | list [] => "[]"
  | list (item :: items) =>
    "[" ++ newline (level + 1) ++ render (level + 1) item ++ renderItems (level + 1) items ++
      newline level ++ "]"
  | object [] => "\x7b\x7d"
  | object ((name, value) :: members) =>
    "\x7b" ++ newline (level + 1) ++ quotedText name ++ ": " ++ render (level + 1) value ++
      renderMembers (level + 1) members ++ newline level ++ "\x7d"

/-- The items after the first one. -/
def renderItems (level : Nat) : List Json → String
  | [] => ""
  | item :: items => "," ++ newline level ++ render level item ++ renderItems level items

/-- The members after the first one. -/
def renderMembers (level : Nat) : List (String × Json) → String
  | [] => ""
  | (name, value) :: members =>
    "," ++ newline level ++ quotedText name ++ ": " ++ render level value ++
      renderMembers level members

end

/-- A document as a text of its own, which ends in a line break. -/
def print (j : Json) : String :=
  j.render 0 ++ "\n"

end Json

end CrateGate
