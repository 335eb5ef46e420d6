import CrateGate.CommandLine.Arguments

/-!
# Invocations

What a command line asks for: a command on a location, help, or nothing that can be done. The
options of the program come before the command, and those of the command after it.
-/

namespace CrateGate.CommandLine

/-- What the gate can be told to do. -/
inductive Command
  | versions
  | before
  | after
  | both
deriving DecidableEq, Repr

namespace Command

/-- The commands in the order of the help. -/
def all : List Command :=
  [versions, before, after, both]

/-- The name of a command on the command line. -/
def name : Command → String
  | versions => "versions"
  | before => "pre"
  | after => "post"
  | both => "check"

/-- What a command does, for the help. -/
def summary : Command → String
  | versions => "Print discovered crate versions"
  | before => "Validate group versions before fixing manifests"
  | after => "Validate the package graph after fixing manifests"
  | both => "Run pre and post validation"

/-- The command of that name. -/
def ofName? (name : String) : Option Command :=
  all.find? fun c => c.name = name

end Command

/-! ## Help -/

/-- The name of the program. -/
def program : String := "release-gate"

/-- The name of a command after that of the program; the program alone without one. -/
def title : Option Command → String
  | none => program
  | some c => program ++ " " ++ c.name

/-- The commands between braces. -/
def choices : String :=
  "\x7b" ++ ",".intercalate (Command.all.map Command.name) ++ "\x7d"

/-- The lines that show how the program or a command is called. -/
def usage : Option Command → List String
  | none =>
    ["usage: " ++ program ++ " [-h] [--config CONFIG] [--verbose]",
      "                    " ++ choices ++ " ..."]
  | some c => ["usage: " ++ title (some c) ++ " [-h] --location LOCATION"]

/-- A text followed by blanks up to a column, and another one there. -/
def atColumn (column : Nat) (left right : String) : String :=
  left ++ String.ofList (List.replicate (column - left.length) ' ') ++ right

/-- The lines of the help. -/
def help : Option Command → List String
  | none =>
    usage none ++
      ["", "Check that crates in each release group share one version", "",
        "positional arguments:", "  " ++ choices] ++
      Command.all.map (fun c => atColumn 24 ("    " ++ c.name) c.summary) ++
      ["", "options:",
        atColumn 24 "  -h, --help" "show this help message and exit",
        atColumn 24 "  --config CONFIG" "Path to a release_gate.yaml",
        atColumn 24 "  --verbose, -v" "Debug logging"]
  | some c =>
    usage (some c) ++
      ["", "options:",
        atColumn 23 "  -h, --help" "show this help message and exit",
        atColumn 23 "  --location LOCATION" "Directory containing the crate manifests"]

/-! ## Options -/

/-- The options of the program. -/
inductive MainOption
  | help
  | config
  | verbose
deriving DecidableEq, Repr

/-- The options of the program with their names. -/
def mainOptions : Options MainOption where
  names := [("-h", .help), ("--help", .help), ("--config", .config), ("--verbose", .verbose),
    ("-v", .verbose)]
  takesValue o := o = .config
  title
    | .help => "-h/--help"
    | .config => "--config"
    | .verbose => "--verbose/-v"

/-- The options of a command. -/
inductive CommandOption
  | help
  | location
deriving DecidableEq, Repr

/-- The options of a command with their names. -/
def commandOptions : Options CommandOption where
  names := [("-h", .help), ("--help", .help), ("--location", .location)]
  takesValue o := o = .location
  title
    | .help => "-h/--help"
    | .location => "--location"

/-! ## Reading a command line -/

/-- What a command line asks for. -/
inductive Invocation
  | help (of : Option Command)
  | idle
  | misuse (of : Option Command) (complaint : String)
  | run (command : Command) (config : Option Path) (verbose : Bool) (location : Path)
deriving DecidableEq, Repr

/-- The options of the program as far as they are read. -/
structure Preamble where
  /-- The settings file. -/
  config : Option Path := none
  /-- Whether all notes are to be shown. -/
  verbose : Bool := false
  /-- Arguments that mean nothing. -/
  extras : List String := []

/-- With one option more; help is given elsewhere. -/
def Preamble.withOption (p : Preamble) (g : Given MainOption) : Preamble :=
  match g.option with
  | .config => { p with config := g.value.map Path.ofString }
  | .verbose => { p with verbose := true }
  | .help => p

/-- The options of a command as far as they are read. -/
structure Orders where
  /-- The location. -/
  location : Option Path := none
  /-- Arguments that mean nothing. -/
  extras : List String := []

/-- The options of a command, or what comes of them at once. -/
def readOrders (rule : LetterRule) (command : Command) :
    Nat → Orders → List (Argument CommandOption) → Except Invocation Orders
  | 0, orders, _ => .ok orders
  | _ + 1, orders, [] => .ok orders
  | fuel + 1, orders, arg :: rest =>
    match arg with
    | .option m text =>
      match m.option with
      | none => readOrders rule command fuel { orders with extras := orders.extras ++ [text] } rest
      | some o =>
        match readOption rule commandOptions o m rest with
        | .error complaint => .error (.misuse (some command) complaint)
        | .ok taken =>
          if taken.given.any fun g => g.option = .help then .error (.help (some command))
          else
            let location :=
              taken.given.foldl (fun _ g => g.value.map Path.ofString) orders.location
            let extras := orders.extras ++ taken.extras
            readOrders rule command fuel { location, extras } taken.rest
    | arg => readOrders rule command fuel { orders with extras := orders.extras ++ [arg.text] } rest

/-- The arguments after a command. -/
def readCommand (rule : LetterRule) (preamble : Preamble) (command : Command)
    (args : List String) : Invocation :=
  match classifyAll commandOptions args with
  | .error complaint => .misuse (some command) complaint
  | .ok args =>
    match readOrders rule command (args.length + 1) {} args with
    | .error invocation => invocation
    | .ok orders =>
      let extras := preamble.extras ++ orders.extras
      match orders.location with
      | none => .misuse (some command) "the following arguments are required: --location"
      | some location =>
        if extras.isEmpty then .run command preamble.config preamble.verbose location
        else .misuse none ("unrecognized arguments: " ++ " ".intercalate extras)

/-- The complaint about a name that is no command. -/
def noCommand (name : String) : String :=
  "argument command: invalid choice: " ++ Text.quoted name ++ " (choose from " ++
    ", ".intercalate (Command.all.map fun c => Text.quoted c.name) ++ ")"

/-- The command that the first argument without a hyphen names, with the arguments after it. -/
def readChoice (rule : LetterRule) (preamble : Preamble) (name : String) (args : List String) :
    Invocation :=
  match Command.ofName? name with
  | some command => readCommand rule preamble command args
  | none => .misuse none (noCommand name)

/-- What a command line asks for if it names no command. -/
def withoutCommand (extras : List String) : Invocation :=
  if extras.isEmpty then .idle
  else .misuse none ("unrecognized arguments: " ++ " ".intercalate extras)

/-- The options of the program, and then the command. -/
def readMain (rule : LetterRule) : Nat → Preamble → List (Argument MainOption) → Invocation
  | 0, preamble, _ => withoutCommand preamble.extras
  | _ + 1, preamble, [] => withoutCommand preamble.extras
  | fuel + 1, preamble, arg :: rest =>
    match arg with
    | .positional name => readChoice rule preamble name (rest.map Argument.text)
    | .dashes =>
      if rest.isEmpty then withoutCommand (preamble.extras ++ ["--"])
      else .misuse none (noCommand "--")
    | .option m text =>
      match m.option with
      | none => readMain rule fuel { preamble with extras := preamble.extras ++ [text] } rest
      | some o =>
        match readOption rule mainOptions o m rest with
        | .error complaint => .misuse none complaint
        | .ok taken =>
          if taken.given.any fun g => g.option = .help then .help none
          else
            let preamble := taken.given.foldl Preamble.withOption preamble
            let extras := preamble.extras ++ taken.extras
            readMain rule fuel { preamble with extras } taken.rest

/-- What a command line asks for. -/
def Invocation.ofArguments (rule : LetterRule) (args : List String) : Invocation :=
  match classifyAll mainOptions args with
  | .error complaint => .misuse none complaint
  | .ok args => readMain rule (args.length + 1) {} args

end CrateGate.CommandLine
