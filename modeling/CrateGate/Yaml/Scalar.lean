import CrateGate.Text.Digit
import CrateGate.Yaml.Token

/-!
# Scalars of YAML

The three ways to write a scalar: plain, in quotes, or as a block below its mark. In all of them a
single line break folds into a blank where the lines are joined.
-/

namespace CrateGate.Yaml

/-! ## Plain scalars -/

/-- Whether a plain scalar ends before a text: at a gap, at a colon with a gap after it, and inside
brackets at the marks of their structure. -/
def plainEnds (inFlow : Bool) : List Char → Bool
  | [] => true
  | x :: rest =>
    let after := rest.headD '\x00'
    isGap x || (x = ':' && (isGap after || (inFlow && [',', '[', ']', '{', '}'].contains after))) ||
      (inFlow && [',', '?', '[', ']', '{', '}'].contains x)

/-- How many characters come before the end of a plain scalar or a gap in it. -/
def plainLength (inFlow : Bool) : List Char → Nat
  | [] => 0
  | x :: rest => if plainEnds inFlow (x :: rest) then 0 else plainLength inFlow rest + 1

/-- What stands between two lines of a plain scalar, with the breaks of the empty lines, and the
place after it; nothing if a line that separates documents comes. -/
def plainBreaks : Nat → Cursor → Except Problem (Option (List Char) × Cursor)
  | 0, c => .ok (some [], c)
  | fuel + 1, c =>
    if c.peek = ' ' then plainBreaks fuel c.next
    else if isBreak c.peek then do
      let (kept, c) := c.lineBreak
      c.look c.separatorReach
      if c.atSeparator then .ok (none, c)
      else
        let (more, c) ← plainBreaks fuel c
        .ok (more.map (kept ++ ·), c)
    else .ok (some [], c)

/-- A gap in a plain scalar. -/
structure Gap where
  /-- What it contributes to the text; nothing ends the scalar. -/
  text : List Char
  /-- Whether it holds a line break. -/
  broken : Bool
  /-- The place after it. -/
  after : Cursor

/-- The gap in a plain scalar here. -/
def plainGap (c : Cursor) : Except Problem Gap :=
  let (blanks, c) := c.span (· = ' ')
  if isBreak c.peek then do
    let (kept, c) := c.lineBreak
    c.look c.separatorReach
    if c.atSeparator then .ok ⟨[], true, c⟩
    else
      let (breaks, c) ← plainBreaks (c.rest.length + 1) c
      match breaks with
      | none => .ok ⟨[], true, c⟩
      | some breaks =>
        let folded := if kept ≠ ['\n'] then kept else if breaks.isEmpty then [' '] else []
        .ok ⟨folded ++ breaks, true, c⟩
  else .ok ⟨blanks, false, c⟩

/-- A plain scalar as far as it is read. -/
structure PlainRun where
  /-- The text. -/
  text : List Char
  /-- Whether the gap after it holds a line break. -/
  broken : Bool
  /-- The place after it and the gap. -/
  after : Cursor

/-- The rest of a plain scalar, after a gap. It has to be indented by `indent` columns unless it
stands in brackets. -/
def readPlain (inFlow : Bool) (indent : Int) :
    Nat → PlainRun → List Char → Except Problem PlainRun
  | 0, run, _ => .ok run
  | fuel + 1, run, gap =>
    let c := run.after
    if c.peek = '#' then .ok run
    else do
      let n := plainLength inFlow c.rest
      let stop := c.skip n
      -- of a colon it shows only after it whether the scalar ends there
      stop.look (if stop.peek = ':' then 1 else 0)
      if n = 0 then .ok run
      else
        let text := run.text ++ gap ++ c.rest.take n
        let g ← plainGap stop
        let run := ⟨text, g.broken, g.after⟩
        if g.text.isEmpty || g.after.peek = '#' ||
            (!inFlow && (g.after.column : Int) < indent) then
          .ok run
        else readPlain inFlow indent fuel run g.text

/-! ## Scalars in quotes -/

/-- What a one-letter escape stands for. -/
def shortEscape? : Char → Option Char
  | '0' => some '\x00'
  | 'a' => some '\x07'
  | 'b' => some '\x08'
  | 't' => some '\t'
  | '\t' => some '\t'
  | 'n' => some '\n'
  | 'v' => some '\x0b'
  | 'f' => some '\x0c'
  | 'r' => some '\r'
  | 'e' => some '\x1b'
  | ' ' => some ' '
  | '"' => some '"'
  | '\\' => some '\\'
  | '/' => some '/'
  | 'N' => some '\x85'
  | '_' => some '\xa0'
  | 'L' => some '\u2028'
  | 'P' => some '\u2029'
  | _ => none

/-- How many hexadecimal digits an escape takes. -/
def codeLength? : Char → Option Nat
  | 'x' => some 2
  | 'u' => some 4
  | 'U' => some 8
  | _ => none

/-- The breaks of empty lines inside quotes; a line that separates documents is a mistake. -/
def quotedBreaks : Nat → Cursor → Except Problem (List Char × Cursor)
  | 0, c => .ok ([], c)
  | fuel + 1, c => do
    c.look c.separatorReach
    if c.atSeparator then .error .malformed
    else
      let c := c.skipWhile fun x => x = ' ' || x = '\t'
      if isBreak c.peek then
        let (kept, c) := c.lineBreak
        let (more, c) ← quotedBreaks fuel c
        .ok (kept ++ more, c)
      else .ok ([], c)

/-- The letter with the code that hexadecimal digits write. Beyond the last code there is none,
and a code of 32 bits is too large even to be one. -/
def letterOfCode (digits : List Char) : Except Problem Letter :=
  let n := Text.numberIn 16 digits
  if 0x80000000 ≤ n then unexpected .tooLarge
  else
    match Letter.ofCode? n with
    | some x => .ok x
    | none => unexpected .badValue

/-- What an escape stands for, and the place after it; the backslash is already read. -/
def readEscape (c : Cursor) : Except Problem (List Letter × Cursor) :=
  match shortEscape? c.peek with
  | some x => .ok ([.char x], c.next)
  | none =>
    match codeLength? c.peek with
    | some n =>
      let digits := c.next.rest.take n
      if digits.length = n && digits.all Text.isHexDigit then do
        let x ← letterOfCode digits
        .ok ([x], c.skip (n + 1))
      else (c.next.skip (digits.takeWhile Text.isHexDigit).length).fail
    | none =>
      if isBreak c.peek then do
        let c := c.lineBreak.2
        let (breaks, c) ← quotedBreaks (c.rest.length + 1) c
        .ok (breaks.map .char, c)
      else c.fail

/-- What a gap inside quotes contributes to the text, and the place after it. -/
def quotedGap (c : Cursor) : Except Problem (List Char × Cursor) :=
  let (blanks, c) := c.span fun x => x = ' ' || x = '\t'
  if c.rest.isEmpty then c.fail
  else if isBreak c.peek then do
    let (kept, c) := c.lineBreak
    let (breaks, c) ← quotedBreaks (c.rest.length + 1) c
    let folded := if kept ≠ ['\n'] then kept else if breaks.isEmpty then [' '] else []
    .ok (folded ++ breaks, c)
  else .ok (blanks, c)

/-- The rest of a scalar in quotes, and the place after it. -/
def readQuoted (quote : Char) : Nat → Cursor → Except Problem (List Letter × Cursor)
  | 0, _ => .error .malformed
  | fuel + 1, c =>
    let x := c.peek
    if c.rest.isEmpty then c.fail
    else if x = quote then
      if quote = '\'' && c.peekAt 1 = '\'' then do
        let (more, c) ← readQuoted quote fuel (c.skip 2)
        .ok (.char '\'' :: more, c)
      else .ok ([], c.next)
    else if quote = '"' && x = '\\' then do
      let (letters, c) ← readEscape c.next
      let (more, c) ← readQuoted quote fuel c
      .ok (letters ++ more, c)
    else if isGap x then do
      let (chars, c) ← quotedGap c
      let (more, c) ← readQuoted quote fuel c
      .ok (chars.map .char ++ more, c)
    else do
      let (more, c) ← readQuoted quote fuel c.next
      .ok (.char x :: more, c)

/-! ## Block scalars -/

/-- What becomes of the line breaks at the end of a block scalar: one stays, none, or all. -/
inductive Chomping
  | clip
  | strip
  | keep
deriving DecidableEq, Repr

/-- The chomping that a mark asks for. -/
def chomping? : Char → Option Chomping
  | '+' => some .keep
  | '-' => some .strip
  | _ => none

/-- An indentation from 1 to 9, if a digit stands here. -/
def readIncrement (c : Cursor) : Except Problem (Option Nat × Cursor) :=
  if !c.peek.isDigit then .ok (none, c)
  else if c.peek = '0' then .error .malformed
  else .ok (some (c.peek.toNat - 48), c.next)

/-- The marks after the first one of a block scalar, in either order. -/
def readHeader (c : Cursor) : Except Problem (Chomping × Option Nat × Cursor) := do
  let (chomping, increment, c) ←
    match chomping? c.peek with
    | some chomping => do
      let (increment, c) ← readIncrement c.next
      .ok (chomping, increment, c)
    | none => do
      let (increment, c) ← readIncrement c
      match increment, chomping? c.peek with
      | some _, some chomping => .ok (chomping, increment, c.next)
      | _, _ => .ok (.clip, increment, c)
  if isSpaceEnd c.peek then .ok (chomping, increment, c) else .error .malformed

/-- The breaks before the first line with text, the greatest column of blanks there, and the place
after them. -/
def leadingBreaks : Nat → Nat → Cursor → List Char × Nat × Cursor
  | 0, widest, c => ([], widest, c)
  | fuel + 1, widest, c =>
    if c.peek = ' ' then leadingBreaks fuel (max widest c.next.column) c.next
    else if isBreak c.peek then
      let (kept, c) := c.lineBreak
      let (more, widest, c) := leadingBreaks fuel widest c
      (kept ++ more, widest, c)
    else ([], widest, c)

/-- The place after at most as many blanks as the indentation has. -/
def skipIndent (indent : Nat) (c : Cursor) : Cursor :=
  let blanks := (c.rest.takeWhile (· = ' ')).length
  c.skip (min blanks (indent - c.column))

/-- The breaks of empty lines in a block scalar, and the place after them and the indentation. -/
def blockBreaks (indent : Nat) : Nat → Cursor → List Char × Cursor
  | 0, c => ([], c)
  | fuel + 1, c =>
    let c := skipIndent indent c
    if isBreak c.peek then
      let (kept, c) := c.lineBreak
      let (more, c) := blockBreaks indent fuel c
      (kept ++ more, c)
    else ([], c)

/-- Whether a line of the block starts here. -/
def onBlockLine (indent : Nat) (c : Cursor) : Bool :=
  c.column = indent && !c.rest.isEmpty

/-- The lines of a block scalar: the text up to the last line, the break after it, the breaks of
the empty lines after that, and the place after all of them. -/
def readBlockLines (folded : Bool) (indent : Nat) :
    Nat → List Char → Cursor → List Char × List Char × List Char × Cursor
  | 0, breaks, c => ([], [], breaks, c)
  | fuel + 1, breaks, c =>
    if !onBlockLine indent c then ([], [], breaks, c)
    else
      let indented := c.peek = ' ' || c.peek = '\t'
      let (line, c) := c.span fun x => !isLineEnd x
      let (kept, c) := c.lineBreak
      let (after, c) := blockBreaks indent (c.rest.length + 1) c
      if onBlockLine indent c then
        let nextIndented := c.peek = ' ' || c.peek = '\t'
        let joint :=
          if folded && kept = ['\n'] && !indented && !nextIndented then
            if after.isEmpty then [' '] else []
          else kept
        let (more, last, trailing, c) := readBlockLines folded indent fuel after c
        (breaks ++ line ++ joint ++ more, last, trailing, c)
      else (breaks ++ line, kept, after, c)

/-- A block scalar, and the place after it; the first mark is already read, and `parent` is the
indentation of what the scalar stands in. -/
def readBlock (folded : Bool) (parent : Int) (c : Cursor) :
    Except Problem (List Char × Cursor) := do
  let (chomping, increment, c) ← readHeader c
  let c := c.skipBlanks
  let c := if c.peek = '#' then c.skipLine else c
  if !isLineEnd c.peek then .error .malformed
  else
    let c := c.lineBreak.2
    let least := (max 1 (parent + 1)).toNat
    let fuel := c.rest.length + 1
    let (breaks, indent, c) :=
      match increment with
      | none =>
        let (breaks, widest, c) := leadingBreaks fuel 0 c
        (breaks, max least widest, c)
      | some n =>
        let indent := least + n - 1
        let (breaks, c) := blockBreaks indent fuel c
        (breaks, indent, c)
    let (text, last, trailing, after) := readBlockLines folded indent fuel breaks c
    let ending := match chomping with
      | .strip => []
      | .clip => last
      | .keep => last ++ trailing
    .ok (text ++ ending, after)

end CrateGate.Yaml
