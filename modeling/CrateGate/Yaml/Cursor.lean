/-!
# Places in a YAML text

A cursor is what is left of a text together with the place where that begins. The characters that
break lines are the line feed, the carriage return, NEL (U+0085), and the line and paragraph
separators. Past the end, the character zero is read, which no text holds. A text may also be cut
off, where it goes on with something that cannot be read; what lies past such an end is not to be
looked at.
-/

namespace CrateGate.Yaml

/-- Characters that break a line. -/
def isBreak (c : Char) : Bool :=
  c = '\n' || c = '\r' || c = '\x85' || c = '\u2028' || c = '\u2029'

/-- Line breaks and the end of the text. -/
def isLineEnd (c : Char) : Bool :=
  c = '\x00' || isBreak c

/-- Blanks, line breaks and the end of the text. -/
def isSpaceEnd (c : Char) : Bool :=
  c = ' ' || isLineEnd c

/-- Blanks, tabs, line breaks and the end of the text. -/
def isGap (c : Char) : Bool :=
  c = '\t' || isSpaceEnd c

/-- Characters that may stand in a YAML text at all. -/
def isAllowed (c : Char) : Bool :=
  let n := c.toNat
  n = 9 || n = 10 || n = 13 || (0x20 ≤ n && n ≤ 0x7E) || n = 0x85 || (0xA0 ≤ n && n ≤ 0xD7FF) ||
    (0xE000 ≤ n && n ≤ 0xFFFD) || 0x10000 ≤ n

/-- A place in a text. -/
structure Cursor where
  /-- What is left. -/
  rest : List Char
  /-- How many characters came before. -/
  index : Nat
  /-- How many lines came before. -/
  line : Nat
  /-- How many characters of the line came before; a byte order mark does not count. -/
  column : Nat
  /-- Whether the text is cut off at its end. -/
  cut : Bool
deriving Repr

namespace Cursor

/-- The start of a text. -/
def start (cs : List Char) (cut : Bool) : Cursor :=
  ⟨cs, 0, 0, 0, cut⟩

/-- The next character. -/
def peek (c : Cursor) : Char :=
  c.rest.headD '\x00'

/-- The character `k` places on. -/
def peekAt (c : Cursor) (k : Nat) : Char :=
  (c.rest.drop k).headD '\x00'

/-- The place one character on. -/
def next (c : Cursor) : Cursor :=
  match c.rest with
  | [] => c
  | x :: rest =>
    let joined := x = '\r' && rest.head? = some '\n'
    if isBreak x && !joined then ⟨rest, c.index + 1, c.line + 1, 0, c.cut⟩
    else if x = '\ufeff' then ⟨rest, c.index + 1, c.line, c.column, c.cut⟩
    else ⟨rest, c.index + 1, c.line, c.column + 1, c.cut⟩

/-- The place `n` characters on. -/
def skip : Nat → Cursor → Cursor
  | 0, c => c
  | n + 1, c => skip n c.next

/-- The characters that pass a test, and the place after them. -/
def span (test : Char → Bool) (c : Cursor) : List Char × Cursor :=
  let taken := c.rest.takeWhile test
  (taken, c.skip taken.length)

/-- The place after the characters that pass a test. -/
def skipWhile (test : Char → Bool) (c : Cursor) : Cursor :=
  (c.span test).2

/-- The place after the blanks. -/
def skipBlanks (c : Cursor) : Cursor :=
  c.skipWhile (· = ' ')

/-- The rest of the line, up to its break. -/
def skipLine (c : Cursor) : Cursor :=
  c.skipWhile fun x => !isLineEnd x

/-- The line break here as it is kept in a text, and the place after it. All breaks are kept as a
line feed but the two separators. -/
def lineBreak (c : Cursor) : List Char × Cursor :=
  let x := c.peek
  if x = '\r' && c.peekAt 1 = '\n' then (['\n'], c.skip 2)
  else if x = '\u2028' || x = '\u2029' then ([x], c.next)
  else if isBreak x then (['\n'], c.next)
  else ([], c)

/-- Whether a text starts here. -/
def startsWith (c : Cursor) (s : List Char) : Bool :=
  s.isPrefixOf c.rest

/-- Whether three characters stand here that separate documents; the column is not looked at. -/
def atMarks (c : Cursor) : Bool :=
  c.startsWith ['-', '-', '-'] || c.startsWith ['.', '.', '.']

/-- Whether a line that separates documents starts here. -/
def atSeparator (c : Cursor) : Bool :=
  c.atMarks && isGap (c.peekAt 3)

/-- How far one has to look from here to tell whether a line separates documents. -/
def separatorReach (c : Cursor) : Nat :=
  if c.atMarks then 3 else 2

/-- Whether the text is cut off before the character `k` places on. -/
def endsBefore (c : Cursor) (k : Nat) : Bool :=
  c.cut && (c.rest.drop k).isEmpty

end Cursor

end CrateGate.Yaml
