import CrateGate.Text.Digit
import CrateGate.Yaml.Token

/-!
# Names, tags and directives of YAML

The properties of nodes and the lines before a document, character by character.
-/

namespace CrateGate.Yaml

/-- A name of an anchor and the place after it; the mark before it is already read. -/
def readName (c : Cursor) : Except Problem (String × Cursor) :=
  let (name, c) := c.span isNameChar
  let closes := isGap c.peek || "?:,]\x7d%@\x60".toList.contains c.peek
  if name.isEmpty || !closes then c.fail else .ok (String.ofList name, c)

/-- Characters of the suffix of a tag, other than the percent sign. -/
def isSuffixChar (c : Char) : Bool :=
  c.isAlphanum || "-;/?:@&=+$,_.!~*'()[]".toList.contains c

/-- The bytes that escapes with a percent sign write, and the place after them. -/
def readBytes : Nat → Cursor → Except Problem (List UInt8 × Cursor)
  | 0, c => .ok ([], c)
  | fuel + 1, c =>
    if c.peek ≠ '%' then .ok ([], c)
    else
      match Text.hexValue? (c.peekAt 1), Text.hexValue? (c.peekAt 2) with
      | some high, some low => do
        let (bytes, c) ← readBytes fuel (c.skip 3)
        .ok (UInt8.ofNat (16 * high + low) :: bytes, c)
      | none, _ => c.next.fail
      | some _, none => (c.skip 2).fail

/-- The suffix of a tag from here on; it may be empty. -/
def readSuffixFrom : Nat → Cursor → Except Problem (List Char × Cursor)
  | 0, c => .ok ([], c)
  | fuel + 1, c =>
    let (chars, c) := c.span isSuffixChar
    if c.peek ≠ '%' then .ok (chars, c)
    else do
      let (bytes, c) ← readBytes (c.rest.length + 1) c
      match String.fromUTF8? ⟨bytes.toArray⟩ with
      | none => c.fail
      | some s =>
        let (more, c) ← readSuffixFrom fuel c
        .ok (chars ++ s.toList ++ more, c)

/-- The suffix of a tag, which is not empty. -/
def readSuffix (c : Cursor) : Except Problem (String × Cursor) := do
  let (suffix, after) ← readSuffixFrom (c.rest.length + 1) c
  if after.index = c.index then after.fail else .ok (String.ofList suffix, after)

/-- The handle of a tag: an exclamation mark, or a name between two of them. -/
def readHandle (c : Cursor) : Except Problem (String × Cursor) :=
  if c.peek ≠ '!' then c.fail
  else if c.peekAt 1 = ' ' then .ok ("!", c.next)
  else
    let (name, after) := c.next.span isNameChar
    if after.peek = '!' then .ok (String.ofList ('!' :: name ++ ['!']), after.next)
    else after.fail

/-- A tag with a handle, and the place after it. Whether the handle has a name shows only at the
next exclamation mark, or where there is none. -/
def readShortTag (c : Cursor) : Except Problem (Token × Cursor) := do
  let mark := c.next.skipWhile fun x => x ≠ '!' && !isSpaceEnd x
  mark.look 0
  if mark.peek = '!' then
    let (handle, c) ← readHandle c
    let (suffix, c) ← readSuffix c
    .ok (.tag (some handle) suffix, c)
  else
    let (suffix, c) ← readSuffix c.next
    .ok (.tag (some "!") suffix, c)

/-- A tag, and the place after it. -/
def readTag (c : Cursor) : Except Problem (Token × Cursor) := do
  let (token, c) ←
    if c.peekAt 1 = '<' then do
      let (suffix, c) ← readSuffix (c.skip 2)
      if c.peek = '>' then .ok (Token.tag none suffix, c.next) else c.fail
    else if isGap (c.peekAt 1) then .ok (.tag none "!", c.next)
    else readShortTag c
  if isSpaceEnd c.peek then .ok (token, c) else c.fail

/-- A number of ASCII digits. -/
def readNumber (c : Cursor) : Except Problem (Nat × Cursor) := do
  let (digits, c) := c.span Char.isDigit
  c.look 0
  if digits.isEmpty then c.fail
  else if Text.digitLimit < digits.length then unexpected .badValue
  else .ok (Text.decimalValue digits, c)

/-- What may follow on a line that is otherwise read: blanks, a comment, and the line break. -/
def readLineRest (c : Cursor) : Except Problem Cursor :=
  let c := c.skipBlanks
  let c := if c.peek = '#' then c.skipLine else c
  if isLineEnd c.peek then .ok c.lineBreak.2 else c.fail

/-- The version that a directive asks for. -/
def readVersion (c : Cursor) : Except Problem (Directive × Cursor) := do
  let (major, c) ← readNumber c.skipBlanks
  if c.peek ≠ '.' then c.fail
  else
    let (_, c) ← readNumber c.next
    if isSpaceEnd c.peek then .ok (.version major, c) else c.fail

/-- The handle that a directive declares, and what it stands for. -/
def readHandleDeclaration (c : Cursor) : Except Problem (Directive × Cursor) := do
  let (handle, c) ← readHandle c.skipBlanks
  if c.peek ≠ ' ' then c.fail
  else
    let (start, c) ← readSuffix c.skipBlanks
    if isSpaceEnd c.peek then .ok (.tag handle start, c) else c.fail

/-- A directive with its line; the percent sign is already read. -/
def readDirective (c : Cursor) : Except Problem (Directive × Cursor) := do
  let (name, c) := c.span isNameChar
  if name.isEmpty || !isSpaceEnd c.peek then c.fail
  else
    let (directive, c) ←
      if name = ['Y', 'A', 'M', 'L'] then readVersion c
      else if name = ['T', 'A', 'G'] then readHandleDeclaration c
      else .ok (.other, c.skipLine)
    let c ← readLineRest c
    .ok (directive, c)

end CrateGate.Yaml
