import CrateGate.Text.Blank
import CrateGate.Toml.Draft
import CrateGate.Toml.Moment
import CrateGate.Toml.Number
import CrateGate.Toml.Text

/-!
# TOML documents

Values and statements, and the record that a whole document makes. Values lie in one another only
so deep, and an inline table takes more of that depth than an array.
-/

namespace CrateGate.Toml

/-- A value without parts, if one starts here. -/
def readAtom (cs : List Char) : Except Problem (Datum × List Char) :=
  match cs with
  | 't' :: 'r' :: 'u' :: 'e' :: rest => .ok (.atom (.flag true), rest)
  | 'f' :: 'a' :: 'l' :: 's' :: 'e' :: rest => .ok (.atom (.flag false), rest)
  | cs =>
    match readMoment? cs with
    | some reading => reading.map fun (m, rest) => (.atom (.moment m), rest)
    | none =>
      match readNumber? cs with
      | some reading => reading.map fun (a, rest) => (.atom a, rest)
      | none => .error .malformed

/-- How deep values may lie in one another. Every value takes its share of the stack, so the number
depends on how much of the stack is in use where a document is read; this is the number for a
document that a command line leads to. -/
def depthLimit : Nat := 980

/-- The depth that is left inside a value that takes some of it. -/
def descend (cost deep : Nat) : Except Problem Nat :=
  if deep < cost then .error .tooDeep else .ok (deep - cost)

mutual

/-- A value of any kind; `deep` says how deep values may still lie in it. -/
def readValue : Nat → Nat → List Char → Except Problem (Datum × List Char)
  | 0, _, _ => .error .malformed
  | fuel + 1, deep, cs =>
    match readText? cs with
    | some reading => reading.map fun (s, rest) => (.text (String.ofList s), rest)
    | none =>
      match cs with
      | '[' :: rest => do
        let deep ← descend 2 deep
        let (items, rest) ← readItems fuel deep rest
        .ok (.list items, rest)
      | '{' :: rest => do
        let deep ← descend 3 deep
        match skipSpaces rest with
        | '}' :: rest => .ok (.record [], rest)
        | rest =>
          let (entries, rest) ← readFields fuel deep [] rest
          .ok (.record (Draft.toFields entries), rest)
      | cs => readAtom cs

/-- The items of an array up to its closing bracket. -/
def readItems : Nat → Nat → List Char → Except Problem (List Datum × List Char)
  | 0, _, _ => .error .malformed
  | fuel + 1, deep, cs => do
    let cs ← skipFiller false cs
    match cs with
    | ']' :: rest => .ok ([], rest)
    | cs => do
      let (item, rest) ← readValue fuel deep cs
      let rest ← skipFiller false rest
      match rest with
      | ']' :: rest => .ok ([item], rest)
      | ',' :: rest => do
        let (items, rest) ← readItems fuel deep rest
        .ok (item :: items, rest)
      | _ => .error .malformed

/-- The fields of an inline table up to its closing brace, put to the entries before them. -/
def readFields : Nat → Nat → Entries → List Char → Except Problem (Entries × List Char)
  | 0, _, _, _ => .error .malformed
  | fuel + 1, deep, entries, cs => do
    let (key, rest) ← readKey cs
    match rest with
    | '=' :: rest => do
      let (d, rest) ← readValue fuel deep (skipSpaces rest)
      let entries ← entries.put 0 d key
      match skipSpaces rest with
      | '}' :: rest => .ok (entries, rest)
      | ',' :: rest => readFields fuel deep entries (skipSpaces rest)
      | _ => .error .malformed
    | _ => .error .malformed

end

/-- A document as far as it is read. -/
structure State where
  /-- The entries so far. -/
  entries : Entries
  /-- The header under which assignments stand. -/
  header : List String
  /-- How many headers there were. -/
  sections : Nat

/-- One statement and what follows it: an array header, a header, or an assignment. -/
def readStatement (st : State) (cs : List Char) : Except Problem (State × List Char) :=
  match cs with
  | '[' :: '[' :: rest => do
    let (key, rest) ← readKey (skipSpaces rest)
    let entries ← st.entries.openArray key
    match rest with
    | ']' :: ']' :: rest => .ok (⟨entries, key, st.sections + 1⟩, rest)
    | _ => .error .malformed
  | '[' :: rest => do
    let (key, rest) ← readKey (skipSpaces rest)
    let entries ← st.entries.openTable key
    match rest with
    | ']' :: rest => .ok (⟨entries, key, st.sections + 1⟩, rest)
    | _ => .error .malformed
  | cs => do
    let (key, rest) ← readKey cs
    match rest with
    | '=' :: rest => do
      let rest := skipSpaces rest
      let (d, rest) ← readValue (rest.length + 1) depthLimit rest
      let entries ← st.entries.assign st.sections st.header key d
      .ok ({ st with entries }, rest)
    | _ => .error .malformed

/-- What follows the end of a line: after a statement only blanks and a comment may stand. -/
def readLineEnd (cs : List Char) : Except Problem (List Char) := do
  match ← skipComment (skipSpaces cs) with
  | [] => .ok []
  | '\n' :: rest => .ok rest
  | _ => .error .malformed

/-- The lines of a document, each empty, a comment or a statement. -/
def readLines : Nat → State → List Char → Except Problem Entries
  | 0, _, _ => .error .malformed
  | fuel + 1, st, cs =>
    match skipSpaces cs with
    | [] => .ok st.entries
    | c :: rest =>
      if c = '\n' then readLines fuel st rest
      else if c = '#' then do
        let rest ← readLineEnd (c :: rest)
        readLines fuel st rest
      else do
        let (st, rest) ← readStatement st (c :: rest)
        let rest ← readLineEnd rest
        readLines fuel st rest

/-- The text of a document as it is read: a line may also end in `\r\n`. -/
def joined (s : String) : String :=
  String.ofList (Text.joinLineEnds s.toList)

/-- The fields of a document. -/
def parse (s : String) : Except Problem (List (String × Datum)) := do
  let cs := (joined s).toList
  let entries ← readLines (cs.length + 1) ⟨[], [], 0⟩ cs
  .ok (Draft.toFields entries)

end CrateGate.Toml
