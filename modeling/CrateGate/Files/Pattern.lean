import CrateGate.Text.Letter

/-!
# Name patterns

Patterns for file names: `*` stands for any letters, `?` for one, and brackets for one of a set of
letters. In brackets a hyphen makes a range, a range that runs backwards is empty, `!` in front
means every letter that is not in the set, and a closing bracket in front is a member of the set. A
bracket that is never closed stands for itself. Upper and lower case differ.
-/

namespace CrateGate.Files

/-- A set of letters. -/
structure LetterSet where
  /-- Whether the set is meant without its members. -/
  negated : Bool
  /-- The members, as ranges with both ends. -/
  ranges : List (Letter × Letter)
deriving DecidableEq, Repr

/-- Whether a letter is in a set. -/
def LetterSet.contains (s : LetterSet) (a : Letter) : Bool :=
  s.ranges.any (fun (low, high) => low ≤ a && a ≤ high) != s.negated

/-- One piece of a pattern. -/
inductive Piece
  | star
  | one
  | set (s : LetterSet)
  | letter (a : Letter)
deriving DecidableEq, Repr

/-- The inside of brackets, cut at the hyphens that make ranges: a range runs from the last
letter of a chunk to the first of the next. No hyphen does that at the start, nor directly after a
range: `least` letters of the chunk have to come first. -/
def chunks : Nat → List Letter → List Letter → List (List Letter)
  | _, chunk, [] => [chunk.reverse]
  | 0, chunk, .char '-' :: a :: rest => chunk.reverse :: chunks 1 [a] rest
  | least, chunk, a :: rest => chunks (least - 1) (a :: chunk) rest

/-- Chunks in which no range runs backwards: the two letters of such a range vanish, and the
chunks become one. -/
def joinEmptyRanges : List (List Letter) → List (List Letter)
  | [] => []
  | [chunk] => [chunk]
  | chunk :: next :: more =>
    match joinEmptyRanges (next :: more) with
    | [] => [chunk]
    | after :: others =>
      match chunk.getLast?, after.head? with
      | some low, some high =>
        if low > high then (chunk.dropLast ++ after.drop 1) :: others
        else chunk :: after :: others
      | _, _ => chunk :: after :: others

/-- The members of a set: the letters of the chunks, and the ranges between them. -/
def members : List (List Letter) → List (Letter × Letter)
  | [] => []
  | [chunk] => chunk.map fun a => (a, a)
  | chunk :: next :: more =>
    let range :=
      match chunk.getLast?, next.head? with
      | some low, some high => [(low, high)]
      | _, _ => [(.char '-', .char '-')]
    chunk.map (fun a => (a, a)) ++ range ++ members (next :: more)

/-- The set that the inside of brackets stands for. -/
def LetterSet.ofInside (inside : List Letter) : LetterSet :=
  let least := if inside.head? = some (.char '!') then 2 else 1
  let found := joinEmptyRanges (chunks least [] inside)
  match found with
  | (.char '!' :: chunk) :: more => ⟨true, members (chunk :: more)⟩
  | _ => ⟨false, members found⟩

/-- The inside of brackets and what follows them, if they are closed. -/
def closeBracket? (letters : List Letter) : Option (List Letter × List Letter) :=
  let (lead, letters) : List Letter × List Letter := match letters with
    | .char '!' :: .char ']' :: rest => ([.char '!', .char ']'], rest)
    | .char ']' :: rest => ([.char ']'], rest)
    | letters => ([], letters)
  match letters.span (· ≠ .char ']') with
  | (inside, _ :: rest) => some (lead ++ inside, rest)
  | (_, []) => none

/-- The pieces of a pattern. -/
def piecesFrom : Nat → List Letter → List Piece
  | 0, _ => []
  | _ + 1, [] => []
  | fuel + 1, a :: rest =>
    if a = .char '*' then .star :: piecesFrom fuel rest
    else if a = .char '?' then .one :: piecesFrom fuel rest
    else if a = .char '[' then
      match closeBracket? rest with
      | some (inside, rest) => .set (LetterSet.ofInside inside) :: piecesFrom fuel rest
      | none => .letter a :: piecesFrom fuel rest
    else .letter a :: piecesFrom fuel rest

/-- The pieces of a pattern. -/
def pieces (pattern : Text) : List Piece :=
  piecesFrom (pattern.letters.length + 1) pattern.letters

/-- Whether a piece stands for one letter, and for this one. -/
def Piece.accepts (a : Letter) : Piece → Bool
  | star => false
  | one => true
  | set s => s.contains a
  | letter x => a = x

/-- For every end of a list, whether some member of that end is true. -/
def anyFrom : List Bool → List Bool
  | [] => []
  | b :: bs => (b || bs.any id) :: anyFrom bs

/-- For every end of a name, the longest first and the empty one last, whether a piece and more
pieces fit it; `row` says that of the pieces after it. -/
def Piece.row (name : List Letter) (row : List Bool) : Piece → List Bool
  | star => anyFrom row
  | piece => List.zipWith (fun a b => piece.accepts a && b) name (row.drop 1) ++ [false]

/-- Whether a name has the form that pieces ask for. The table of all ends of the name is kept for
one piece at a time, so many stars take no longer than other pieces. -/
def fits (pieces : List Piece) (name : Text) : Bool :=
  (pieces.foldr (fun piece row => piece.row name.letters row)
    (name.letters.map (fun _ => false) ++ [true])).headD false

/-- Whether a part of a pattern has to be matched against names, or is a name itself. -/
def isWild (part : Text) : Bool :=
  part.letters.any fun a => a = .char '*' || a = .char '?' || a = .char '['

end CrateGate.Files
