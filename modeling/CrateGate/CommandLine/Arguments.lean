import CrateGate.Path
import CrateGate.Text.Digit
import CrateGate.Text.Quoted

/-!
# Arguments

How the arguments of a command are told apart. An argument that starts with a hyphen is an option:
by its name, by the start of a name that fits only one, or by a name and its value with an equals
sign between. Options of one letter can be written together. A negative number is no option, nor is
a text with a blank in it unless it has the name of one, and after `--` nothing is.

What becomes of letters that are written together with an option and are none themselves has been
settled in two ways (`LetterRule`); all else is the same under both.
-/

namespace CrateGate.CommandLine

/-- The options of a command. -/
structure Options (α : Type) where
  /-- The names, hyphens included, in the order of the help; an option may have several. -/
  names : List (String × α)
  /-- Whether an option takes a value. -/
  takesValue : α → Bool
  /-- An option as it is called in messages: its names with slashes between. -/
  title : α → String

/-- An argument that looks like an option: which one, if it is known, and what is written after
it. -/
structure Match (α : Type) where
  /-- The option, if the command has it. -/
  option : Option α
  /-- Its name, as far as it is known. -/
  name : String
  /-- What is written after it. -/
  value : Option String
  /-- Whether an equals sign stands between the two. -/
  marked : Bool := false

/-- An argument as a part of a command. -/
inductive Argument (α : Type)
  | option (m : Match α) (text : String)
  | positional (text : String)
  | dashes

/-- The argument as it was written. -/
def Argument.text {α : Type} : Argument α → String
  | option _ text => text
  | positional text => text
  | dashes => "--"

/-- A name and the value after the first equals sign, if there is one. -/
def splitValue (cs : List Char) : List Char × Option String :=
  match cs.span (· ≠ '=') with
  | (name, _ :: value) => (name, some (String.ofList value))
  | (name, []) => (name, none)

/-- A hyphen and a number with or without a decimal point; a line feed may follow. -/
def isNegativeNumber (cs : List Char) : Bool :=
  let cs := if cs.getLast? = some '\n' then cs.dropLast else cs
  match cs with
  | '-' :: rest =>
    let (whole, rest) := rest.span Text.isDigit
    match rest with
    | [] => !whole.isEmpty
    | '.' :: places => Text.isDigits places
    | _ => false
  | _ => false

variable {α : Type}

/-- The options that an argument can mean by the start of their names. With two hyphens the value
comes after an equals sign; with one, all after the first letter. -/
def candidates (options : Options α) (arg : List Char) : List (Match α) :=
  match arg with
  | '-' :: '-' :: _ =>
    let (start, value) := splitValue arg
    (options.names.filter fun (name, _) => start.isPrefixOf name.toList).map fun (name, o) =>
      { option := some o, name, value, marked := value.isSome }
  | _ =>
    options.names.filterMap fun (name, o) =>
      if name.toList = arg.take 2 then
        some { option := some o, name, value := some (String.ofList (arg.drop 2)) }
      else if arg.isPrefixOf name.toList then some { option := some o, name, value := none }
      else none

/-- What an argument is, before `--`; otherwise the message that it is ambiguous. -/
def classify (options : Options α) (arg : String) : Except String (Argument α) :=
  let cs := arg.toList
  let found (name : String) : Option α := options.names.lookup name
  let (start, value) := splitValue cs
  let start := String.ofList start
  if cs.head? ≠ some '-' then .ok (.positional arg)
  else
    match found arg with
    | some o => .ok (.option { option := some o, name := arg, value := none } arg)
    | none =>
      if cs.length = 1 then .ok (.positional arg)
      else
        match value, found start with
        | some v, some o =>
          .ok (.option { option := some o, name := start, value := some v, marked := true } arg)
        | _, _ =>
          match candidates options cs with
          | [m] => .ok (.option m arg)
          | [] =>
            if isNegativeNumber cs || cs.contains ' ' then .ok (.positional arg)
            else .ok (.option { option := none, name := arg, value := none } arg)
          | several =>
            .error ("ambiguous option: " ++ arg ++ " could match " ++
              ", ".intercalate (several.map Match.name))

/-- What the arguments of a command are. -/
def classifyAll (options : Options α) : List String → Except String (List (Argument α))
  | [] => .ok []
  | arg :: args =>
    if arg = "--" then .ok (.dashes :: args.map .positional)
    else do
      let first ← classify options arg
      let rest ← classifyAll options args
      .ok (first :: rest)

/-- An option with its value, as it is given. -/
structure Given (α : Type) where
  /-- The option. -/
  option : α
  /-- Its value, if it takes one. -/
  value : Option String

/-- The message about an option. -/
def complaint (options : Options α) (o : α) (text : String) : String :=
  "argument " ++ options.title o ++ ": " ++ text

/-- What one argument gives, and what is left after it. -/
structure Taken (α : Type) where
  /-- The options in their order. -/
  given : List (Given α)
  /-- The arguments after it and its value. -/
  rest : List (Argument α)
  /-- Letters that mean nothing, as an argument of their own. -/
  extras : List String := []

/-- An option with nothing written after it: its value, if it takes one, is the next argument. -/
def readAlone (options : Options α) (o : α) (rest : List (Argument α)) :
    Except String (Taken α) :=
  if !options.takesValue o then .ok { given := [⟨o, none⟩], rest }
  else
    match rest with
    | .positional text :: rest => .ok { given := [⟨o, some text⟩], rest }
    | _ => .error (complaint options o "expected one argument")

/-- What becomes of the letters that are written together with an option that takes no value. -/
inductive LetterRule
  /-- Each has to be an option, and an equals sign before them is none of them. -/
  | refuse
  /-- None may stand after an equals sign or be a hyphen; from the first that is no option on, they
  are put aside as an argument that means nothing. -/
  | putAside
deriving DecidableEq, Repr

/-- Whether letters may not be options, by where they stand and how they begin. -/
def LetterRule.forbids (rule : LetterRule) (marked : Bool) (letter : Char) : Bool :=
  rule = .putAside && (marked || letter = '-')

/-- The letters after an option of one letter, without an equals sign at their start where that is a
mark. -/
def LetterRule.unmarked : LetterRule → List Char → Bool × List Char
  | .putAside, '=' :: letters => (true, letters)
  | _, letters => (false, letters)

/-- An option of one letter with something written after it, perhaps after an equals sign. If it
takes no value, what is written there are more options of one letter. -/
def readLetters (rule : LetterRule) (options : Options α) (rest : List (Argument α)) :
    Nat → α → Bool → List Char → Except String (Taken α)
  | fuel, o, marked, text =>
    if options.takesValue o then .ok { given := [⟨o, some (String.ofList text)⟩], rest }
    else
      let ignored := complaint options o ("ignored explicit argument " ++
        Text.quoted (String.ofList text))
      match fuel, text with
      | _, [] | 0, _ => .error ignored
      | fuel + 1, letter :: letters =>
        if rule.forbids marked letter then .error ignored
        else
          match rule, options.names.lookup (String.ofList ['-', letter]) with
          | .refuse, none => .error ignored
          | .putAside, none =>
            .ok { given := [⟨o, none⟩], rest, extras := [String.ofList ('-' :: text)] }
          | _, some next => do
            let (marked, more) := rule.unmarked letters
            let taken ←
              if letters.isEmpty then readAlone options next rest
              else readLetters rule options rest fuel next marked more
            .ok { taken with given := ⟨o, none⟩ :: taken.given }

/-- An option of a whole name with a value written after it. -/
def readValued (options : Options α) (rest : List (Argument α)) (o : α) (value : String) :
    Except String (Taken α) :=
  if options.takesValue o then .ok { given := [⟨o, some value⟩], rest }
  else
    .error (complaint options o ("ignored explicit argument " ++ Text.quoted value))

/-- Whether a name has one hyphen only. -/
def isLetterName (name : String) : Bool :=
  (name.toList.drop 1).head? ≠ some '-'

/-- The options that one argument gives. -/
def readOption (rule : LetterRule) (options : Options α) (o : α) (m : Match α)
    (rest : List (Argument α)) : Except String (Taken α) :=
  match m.value with
  | some value =>
    if isLetterName m.name then
      readLetters rule options rest value.toList.length o m.marked value.toList
    else readValued options rest o value
  | none => readAlone options o rest

end CrateGate.CommandLine
