import CrateGate.Yaml.Name
import CrateGate.Yaml.Scalar
import CrateGate.Yaml.Stream

/-!
# The tokens of a YAML text

A text is read from left to right. Outside brackets the indentation opens and closes blocks. A
token may turn out to be a key only when the colon after it is seen, so the places where a key may
have begun are kept, one for each level of brackets; a key takes one line and at most 1024
characters.

If the text cannot be read to its end, the tokens before that place are kept with the problem, up
to the first of which it is still open whether it is a key.
-/

namespace CrateGate.Yaml

/-- A place where a key may have begun. -/
structure KeyStart where
  /-- How many tokens came before. -/
  number : Nat
  /-- Whether a key has to begin there. -/
  required : Bool
  /-- Where it is. -/
  place : Cursor

/-- A text as far as its tokens are read. -/
structure Reading where
  /-- The place that is reached. -/
  cursor : Cursor
  /-- How many brackets are open. -/
  depth : Nat
  /-- The column of the innermost block; -1 if there is none. -/
  indent : Int
  /-- The columns of the blocks around it. -/
  outer : List Int
  /-- Whether a key may begin here. -/
  keyAllowed : Bool
  /-- The places where a key may have begun, each with its level of brackets. -/
  starts : List (Nat × KeyStart)
  /-- The tokens. -/
  tokens : Array Token
  /-- Whether the end has been read. -/
  finished : Bool

namespace Reading

/-- A text before anything is read. -/
def start (cs : List Char) (cut : Bool) : Reading :=
  ⟨.start cs cut, 0, -1, [], true, [], #[], false⟩

/-- With one token more. -/
def push (r : Reading) (t : Token) : Reading :=
  { r with tokens := r.tokens.push t }

/-- With one token more and its characters behind. -/
def take (r : Reading) (n : Nat) (t : Token) : Reading :=
  { r with cursor := r.cursor.skip n, tokens := r.tokens.push t }

/-! ## Places where a key may have begun -/

/-- Whether a key that began there would be too long by now, or on another line. -/
def isStale (r : Reading) (k : KeyStart) : Bool :=
  k.place.line ≠ r.cursor.line || 1024 < r.cursor.index - k.place.index

/-- Without the places from which no key can reach this far. -/
def expire (r : Reading) : Except Problem Reading :=
  if r.starts.any fun (_, k) => r.isStale k && k.required then .error .malformed
  else .ok { r with starts := r.starts.filter fun (_, k) => !r.isStale k }

/-- Without the place at the present level. -/
def forget (r : Reading) : Except Problem Reading :=
  if r.starts.any fun (depth, k) => depth = r.depth && k.required then .error .malformed
  else .ok { r with starts := r.starts.filter fun (depth, _) => depth ≠ r.depth }

/-- With this place, if a key may begin here. -/
def remember (r : Reading) : Except Problem Reading :=
  if !r.keyAllowed then .ok r
  else do
    let r ← r.forget
    let required : Bool := r.depth = 0 && r.indent = r.cursor.column
    .ok { r with starts := (r.depth, ⟨r.tokens.size, required, r.cursor⟩) :: r.starts }

/-! ## Blocks -/

/-- The blocks that are left when those beyond a column are closed. -/
def close (column : Int) : List Int → Int → Array Token → Int × List Int × Array Token
  | [], indent, tokens => (indent, [], tokens)
  | i :: outer, indent, tokens =>
    if indent > column then close column outer i (tokens.push .blockEnd)
    else (indent, i :: outer, tokens)

/-- With the blocks beyond a column closed; brackets keep blocks open. -/
def unwind (r : Reading) (column : Int) : Reading :=
  if r.depth ≠ 0 then r
  else
    let (indent, outer, tokens) := close column r.outer r.indent r.tokens
    { r with indent, outer, tokens }

/-- With a block opened at a column, if it lies beyond the innermost one and outside brackets; its
token goes before the token of that number. -/
def openBlock (r : Reading) (t : Token) (column number : Nat) : Reading :=
  if r.depth = 0 && r.indent < column then
    { r with
      indent := column
      outer := r.indent :: r.outer
      tokens := r.tokens.insertIdxIfInBounds number t }
  else r

/-- With a block opened at this place. -/
def openBlockHere (r : Reading) (t : Token) : Reading :=
  r.openBlock t r.cursor.column r.tokens.size

/-! ## One token -/

/-- The place of the next token: past blanks, comments and line breaks. A byte order mark may start
the text. -/
def skipGap : Nat → Reading → Reading
  | 0, r => r
  | fuel + 1, r =>
    let c := r.cursor.skipBlanks
    let c := if c.peek = '#' then c.skipLine else c
    if isBreak c.peek then
      let keyAllowed := r.keyAllowed || r.depth = 0
      skipGap fuel { r with cursor := c.lineBreak.2, keyAllowed }
    else { r with cursor := c }

/-- The end of the text. -/
def readEnd (r : Reading) : Except Problem Reading := do
  let r ← (r.unwind (-1)).forget
  .ok { r.push .streamEnd with keyAllowed := false, starts := [], finished := true }

/-- A directive, which stands alone on its line. -/
def readDirectiveLine (r : Reading) : Except Problem Reading := do
  let r ← (r.unwind (-1)).forget
  let (d, c) ← readDirective r.cursor.next
  .ok { r.push (.directive d) with cursor := c, keyAllowed := false }

/-- A line that separates documents. -/
def readSeparator (r : Reading) (t : Token) : Except Problem Reading := do
  let r ← (r.unwind (-1)).forget
  .ok { r.take 3 t with keyAllowed := false }

/-- An opening bracket. -/
def openBracket (r : Reading) (t : Token) : Except Problem Reading := do
  let r ← r.remember
  .ok { r.take 1 t with depth := r.depth + 1, keyAllowed := true }

/-- A closing bracket. -/
def closeBracket (r : Reading) (t : Token) : Except Problem Reading := do
  let r ← r.forget
  .ok { r.take 1 t with depth := r.depth - 1, keyAllowed := false }

/-- A comma inside brackets. -/
def readComma (r : Reading) : Except Problem Reading := do
  let r ← r.forget
  .ok { r.take 1 .flowEntry with keyAllowed := true }

/-- A hyphen before an item. -/
def readHyphen (r : Reading) : Except Problem Reading :=
  if r.depth = 0 && !r.keyAllowed then .error .malformed
  else do
    let r ← (r.openBlockHere .blockSequenceStart).forget
    .ok { r.take 1 .blockEntry with keyAllowed := true }

/-- A question mark before a key. -/
def readQuestion (r : Reading) : Except Problem Reading :=
  if r.depth = 0 && !r.keyAllowed then .error .malformed
  else do
    let r ← (r.openBlockHere .blockMappingStart).forget
    .ok { r.take 1 .key with keyAllowed := r.depth = 0 }

/-- A colon after a key. What began at the place kept for this level was the key. -/
def readColon (r : Reading) : Except Problem Reading :=
  match r.starts.find? fun (depth, _) => depth = r.depth with
  | some (_, k) =>
    let starts := r.starts.filter fun (depth, _) => depth ≠ r.depth
    let tokens := r.tokens.insertIdxIfInBounds k.number .key
    let r := { r with starts, tokens }
    let r := r.openBlock .blockMappingStart k.place.column k.number
    .ok { r.take 1 .value with keyAllowed := false }
  | none =>
    if r.depth = 0 && !r.keyAllowed then .error .malformed
    else do
      let r := { r.openBlockHere .blockMappingStart with keyAllowed := r.depth = 0 }
      let r ← r.forget
      .ok (r.take 1 .value)

/-- An alias, an anchor or a tag. -/
def readProperty (r : Reading) : Except Problem Reading := do
  let r ← r.remember
  let (t, c) ←
    if r.cursor.peek = '*' then do
      let (name, c) ← readName r.cursor.next
      .ok (Token.alias name, c)
    else if r.cursor.peek = '&' then do
      let (name, c) ← readName r.cursor.next
      .ok (.anchor name, c)
    else readTag r.cursor
  .ok { r.push t with cursor := c, keyAllowed := false }

/-- A block scalar. -/
def readBlockScalar (r : Reading) : Except Problem Reading := do
  let r ← r.forget
  let (text, c) ← readBlock (r.cursor.peek = '>') r.indent r.cursor.next
  .ok { r.push (.scalar (String.ofList text) false) with cursor := c, keyAllowed := true }

/-- A scalar in quotes. -/
def readQuotedScalar (r : Reading) : Except Problem Reading := do
  let r ← r.remember
  let c := r.cursor.next
  let (letters, c) ← readQuoted r.cursor.peek (c.rest.length + 1) c
  .ok { r.push (.scalar ⟨letters⟩ false) with cursor := c, keyAllowed := false }

/-- A plain scalar. -/
def readPlainScalar (r : Reading) : Except Problem Reading := do
  let r ← r.remember
  let c := r.cursor
  let run ← readPlain (r.depth ≠ 0) (r.indent + 1) (c.rest.length + 1) ⟨[], false, c⟩ []
  let r := r.push (.scalar (String.ofList run.text) true)
  .ok { r with cursor := run.after, keyAllowed := run.broken }

/-- Marks of structure, with which no plain scalar starts. -/
def isMark (c : Char) : Bool :=
  "-?:,[]\x7b\x7d#&*!|>'\"%@\x60".toList.contains c

/-- Whether a plain scalar starts here. -/
def startsPlain (r : Reading) : Bool :=
  let x := r.cursor.peek
  (!isGap x && !isMark x) ||
    (!isGap (r.cursor.peekAt 1) && (x = '-' || (r.depth = 0 && (x = '?' || x = ':'))))

/-- How far one has to look beyond the next character to tell which token is there. -/
def reach (r : Reading) : Nat :=
  let c := r.cursor
  let x := c.peek
  if (x = '-' || x = '.') && c.column = 0 then c.separatorReach
  else if x = '-' || x = '\t' || x = '@' || x = '\x60' then 1
  else if x = '?' || x = ':' then if r.depth = 0 then 1 else 0
  else if x = '|' || x = '>' then if r.depth = 0 then 0 else 1
  else if x = '%' then if c.column = 0 then 0 else 1
  else 0

/-- The token at the place that is reached. -/
def readToken (r : Reading) : Except Problem Reading :=
  let c := r.cursor
  let x := c.peek
  let spaced := r.depth ≠ 0 || isGap (c.peekAt 1)
  if c.rest.isEmpty then r.readEnd
  else if x = '%' && c.column = 0 then r.readDirectiveLine
  else if x = '-' && c.column = 0 && c.atSeparator then r.readSeparator .documentStart
  else if x = '.' && c.column = 0 && c.atSeparator then r.readSeparator .documentEnd
  else if x = '[' then r.openBracket .flowSequenceStart
  else if x = '{' then r.openBracket .flowMappingStart
  else if x = ']' then r.closeBracket .flowSequenceEnd
  else if x = '}' then r.closeBracket .flowMappingEnd
  else if x = ',' then r.readComma
  else if x = '-' && isGap (c.peekAt 1) then r.readHyphen
  else if x = '?' && spaced then r.readQuestion
  else if x = ':' && spaced then r.readColon
  else if x = '*' || x = '&' || x = '!' then r.readProperty
  else if (x = '|' || x = '>') && r.depth = 0 then r.readBlockScalar
  else if x = '\'' || x = '"' then r.readQuotedScalar
  else if r.startsPlain then r.readPlainScalar
  else .error .malformed

/-- The next token, past a gap; blocks that the indentation ends are closed before it. The character
after the token is looked at with it. -/
def advance (r : Reading) : Except Problem Reading := do
  let r ← r.expire
  let r := skipGap (r.cursor.rest.length + 1) r
  r.cursor.look 0
  let r ← r.expire
  r.cursor.look r.reach
  let r ← (r.unwind r.cursor.column).readToken
  r.cursor.look 0
  .ok r

/-- The tokens of which it is known whether they are keys. -/
def settled (r : Reading) : List Token :=
  let pending := (r.starts.filter fun (_, k) => !r.isStale k).map fun (_, k) => k.number
  r.tokens.toList.take (pending.foldl min r.tokens.size)

/-- The tokens up to the end of the text or to a problem. The problem at which a text is cut off
comes up with the first token for which more than the text has to be looked at. -/
def readAll (fault : Option Problem) : Nat → Reading → List Token × Problem
  | 0, r => (r.tokens.toList, .malformed)
  | fuel + 1, r =>
    if r.finished then (r.tokens.toList, .malformed)
    else
      match r.advance with
      | .ok next => readAll fault fuel next
      | .error .unfinished => (r.settled, fault.getD .malformed)
      | .error problem => (r.settled, problem)

end Reading

/-- The tokens of a text, and the problem that comes when no token is left. -/
def tokensOf (text : Stream) : List Token × Problem :=
  let r := Reading.start text.chars text.fault.isSome
  let c := if text.chars.head? = some '\ufeff' then r.cursor.next else r.cursor
  Reading.readAll text.fault (text.chars.length + 2) { r with cursor := c }

end CrateGate.Yaml
