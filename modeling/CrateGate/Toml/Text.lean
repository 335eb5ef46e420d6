import CrateGate.Text.Digit
import CrateGate.Toml.Problem

/-!
# Texts and keys of TOML

The four forms of a text (basic or literal, on one line or on several), comments, and keys. A
control character stands in none of them, except a tab and, in the forms of several lines, a line
feed.
-/

namespace CrateGate.Toml

/-- Blanks inside a line. -/
def isSpace (c : Char) : Bool :=
  c = ' ' || c = '\t'

/-- Control characters other than a tab. -/
def isControl (c : Char) : Bool :=
  (c.toNat < 32 && c ≠ '\t') || c.toNat = 127

/-- A text without the blanks at its start. -/
def skipSpaces (cs : List Char) : List Char :=
  cs.dropWhile isSpace

/-- What follows the comment that a text may start with. -/
def skipComment : List Char → Except Problem (List Char)
  | '#' :: rest =>
    let (comment, after) := rest.span (· ≠ '\n')
    if comment.any isControl then .error .malformed else .ok after
  | cs => .ok cs

/-- What follows the blanks, line feeds and comments inside an array; `inComment` tells whether a
comment has begun. -/
def skipFiller : Bool → List Char → Except Problem (List Char)
  | _, [] => .ok []
  | true, c :: rest =>
    if c = '\n' then skipFiller false rest
    else if isControl c then .error .malformed
    else skipFiller true rest
  | false, c :: rest =>
    if isSpace c || c = '\n' then skipFiller false rest
    else if c = '#' then skipFiller true rest
    else .ok (c :: rest)

/-! ## Escapes -/

/-- What a one-letter escape stands for. -/
def shortEscape? : Char → Option Char
  | 'b' => some '\x08'
  | 't' => some '\t'
  | 'n' => some '\n'
  | 'f' => some '\x0c'
  | 'r' => some '\r'
  | '"' => some '"'
  | '\\' => some '\\'
  | _ => none

/-- The character with the code that hexadecimal digits write; halves of a surrogate pair and
numbers beyond the last code are none. -/
def charOfHex? (digits : List Char) : Option Char :=
  if digits.all Text.isHexDigit then
    let n := Text.numberIn 16 digits
    if n < 0xD800 || (0xE000 ≤ n && n < 0x110000) then some (Char.ofNat n) else none
  else none

/-- The character that an escape stands for, and what follows it. The backslash is already
read. -/
def readEscape : List Char → Except Problem (Char × List Char)
  | 'u' :: a :: b :: c :: d :: rest =>
    match charOfHex? [a, b, c, d] with
    | some x => .ok (x, rest)
    | none => .error .malformed
  | 'U' :: a :: b :: c :: d :: e :: f :: g :: h :: rest =>
    match charOfHex? [a, b, c, d, e, f, g, h] with
    | some x => .ok (x, rest)
    | none => .error .malformed
  | c :: rest =>
    match shortEscape? c with
    | some x => .ok (x, rest)
    | none => .error .malformed
  | [] => .error .malformed

/-! ## Texts on one line -/

/-- The rest of a basic text after its opening quote. -/
def readBasic : Nat → List Char → Except Problem (List Char × List Char)
  | 0, _ => .error .malformed
  | _ + 1, [] => .error .malformed
  | fuel + 1, c :: rest =>
    if c = '"' then .ok ([], rest)
    else if c = '\\' then do
      let (x, rest) ← readEscape rest
      let (xs, rest) ← readBasic fuel rest
      .ok (x :: xs, rest)
    else if isControl c then .error .malformed
    else do
      let (xs, rest) ← readBasic fuel rest
      .ok (c :: xs, rest)

/-- The rest of a literal text after its opening quote. -/
def readLiteral : List Char → Except Problem (List Char × List Char)
  | [] => .error .malformed
  | c :: rest =>
    if c = '\'' then .ok ([], rest)
    else if isControl c then .error .malformed
    else do
      let (xs, rest) ← readLiteral rest
      .ok (c :: xs, rest)

/-! ## Texts on several lines -/

/-- Up to two quotes that stand directly before the closing three belong to the text. -/
def extraQuotes (quote : Char) : List Char → List Char × List Char
  | a :: b :: rest =>
    if a ≠ quote then ([], a :: b :: rest)
    else if b = quote then ([a, b], rest)
    else ([a], b :: rest)
  | [a] => if a = quote then ([a], []) else ([], [a])
  | [] => ([], [])

/-- What follows a backslash at the end of a line: the blanks before the line feed, the line feed,
and all blanks and line feeds after it. -/
def skipLineEnd (cs : List Char) : Except Problem (List Char) :=
  match skipSpaces cs with
  | [] => .ok []
  | c :: rest =>
    if c = '\n' then .ok (rest.dropWhile fun x => isSpace x || x = '\n') else .error .malformed

/-- The rest of a basic text of several lines. -/
def readBasicLines : Nat → List Char → Except Problem (List Char × List Char)
  | 0, _ => .error .malformed
  | _ + 1, [] => .error .malformed
  | _ + 1, '"' :: '"' :: '"' :: rest => .ok (extraQuotes '"' rest)
  | fuel + 1, '\\' :: rest =>
    if rest.head?.any fun c => isSpace c || c = '\n' then do
      let rest ← skipLineEnd rest
      readBasicLines fuel rest
    else do
      let (x, rest) ← readEscape rest
      let (xs, rest) ← readBasicLines fuel rest
      .ok (x :: xs, rest)
  | fuel + 1, c :: rest =>
    if isControl c && c ≠ '\n' then .error .malformed
    else do
      let (xs, rest) ← readBasicLines fuel rest
      .ok (c :: xs, rest)

/-- The rest of a literal text of several lines. -/
def readLiteralLines : List Char → Except Problem (List Char × List Char)
  | [] => .error .malformed
  | '\'' :: '\'' :: '\'' :: rest => .ok (extraQuotes '\'' rest)
  | c :: rest =>
    if isControl c && c ≠ '\n' then .error .malformed
    else do
      let (xs, rest) ← readLiteralLines rest
      .ok (c :: xs, rest)

/-- A text without the line feed it may start with. -/
def skipFirstNewline : List Char → List Char
  | '\n' :: rest => rest
  | cs => cs

/-- A text in any of the four forms, if one starts here. -/
def readText? (cs : List Char) : Option (Except Problem (List Char × List Char)) :=
  match cs with
  | '"' :: '"' :: '"' :: rest => some (readBasicLines (rest.length + 1) (skipFirstNewline rest))
  | '\'' :: '\'' :: '\'' :: rest => some (readLiteralLines (skipFirstNewline rest))
  | '"' :: rest => some (readBasic (rest.length + 1) rest)
  | '\'' :: rest => some (readLiteral rest)
  | _ => none

/-! ## Keys -/

/-- Characters of a key without quotes. -/
def isKeyChar (c : Char) : Bool :=
  Text.isAlphanumeric c || c = '-' || c = '_'

/-- One part of a key: a text on one line or characters without quotes. -/
def readKeyPart (cs : List Char) : Except Problem (String × List Char) :=
  match cs with
  | [] => .error .malformed
  | c :: rest =>
    if isKeyChar c then
      let (part, after) := cs.span isKeyChar
      .ok (String.ofList part, after)
    else if c = '\'' then do
      let (part, after) ← readLiteral rest
      .ok (String.ofList part, after)
    else if c = '"' then do
      let (part, after) ← readBasic (rest.length + 1) rest
      .ok (String.ofList part, after)
    else .error .malformed

/-- The parts of a key with dots between them, and what follows the blanks after it. -/
def readKeyParts : Nat → List Char → Except Problem (List String × List Char)
  | 0, _ => .error .malformed
  | fuel + 1, cs => do
    let (part, rest) ← readKeyPart cs
    match skipSpaces rest with
    | '.' :: rest =>
      let (parts, rest) ← readKeyParts fuel (skipSpaces rest)
      .ok (part :: parts, rest)
    | rest => .ok ([part], rest)

/-- A key, and what follows the blanks after it. -/
def readKey (cs : List Char) : Except Problem (List String × List Char) :=
  readKeyParts (cs.length + 1) cs

end CrateGate.Toml
