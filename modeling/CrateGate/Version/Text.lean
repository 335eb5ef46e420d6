import CrateGate.Datum
import CrateGate.Text.Blank
import CrateGate.Text.Digit
import CrateGate.Version.Basic

/-!
# Reading versions

A version text is three numbers with dots between them, then optionally a hyphen and pre-release
identifiers, then optionally a plus sign and build identifiers. The first plus sign starts the
build part and the first hyphen before it starts the pre-release part, so the parts are cut first
and checked one by one.

A number is `0`, or an ASCII digit from 1 to 9 and then decimal digits of any script. Numbers of
more than 4300 digits are in the grammar, but they are not computed.
-/

namespace CrateGate.Version

/-- Why a version cannot be read. -/
inductive Problem
  | notText (shown : String)
  | malformed (text : String)
  | oversized
deriving DecidableEq, Repr

/-- The wording of a problem. -/
def Problem.message : Problem → String
  | notText shown => "invalid semver " ++ shown ++ ": not a string"
  | malformed text => "invalid semver '" ++ text ++ "'"
  | oversized => "number too long"

/-- A number: `0`, or an ASCII digit from 1 to 9 and then decimal digits. -/
def isNumber : List Char → Bool
  | [] => false
  | c :: rest => if c = '0' then rest.isEmpty else c.isDigit && rest.all Text.isDigit

/-- The characters of build identifiers. -/
def isIdentifierChar (c : Char) : Bool :=
  Text.isAlphanumeric c || c = '-'

/-- The characters that make an identifier more than a number. -/
def isIdentifierMark (c : Char) : Bool :=
  c.isAlpha || c = '-'

/-- A build identifier: one or more letters, digits and hyphens, all of them ASCII. -/
def isBuildIdentifier (cs : List Char) : Bool :=
  !cs.isEmpty && cs.all isIdentifierChar

/-- A pre-release identifier that is no number: decimal digits, then an ASCII letter or a hyphen,
then ASCII letters, digits and hyphens. -/
def isAlphaIdentifier (cs : List Char) : Bool :=
  match cs.dropWhile Text.isDigit with
  | [] => false
  | c :: rest => isIdentifierMark c && rest.all isIdentifierChar

/-- A pre-release identifier. -/
def isPreIdentifier (cs : List Char) : Bool :=
  isNumber cs || isAlphaIdentifier cs

/-- A text cut at the first `mark`: what stands before it and, if there is one, what stands after
it. -/
def cut (mark : Char) : List Char → List Char × Option (List Char)
  | [] => ([], none)
  | c :: rest =>
    if c = mark then ([], some rest)
    else
      let (before, after) := cut mark rest
      (c :: before, after)

/-- A text in its parts, before any of them is checked. -/
structure Parts where
  /-- The texts between the dots of the first part. -/
  numbers : List (List Char)
  /-- What follows the hyphen, if there is one. -/
  pre : Option (List Char)
  /-- What follows the plus sign, if there is one. -/
  build : Option (List Char)

/-- The parts of a text. -/
def partsOf (cs : List Char) : Parts :=
  let (before, build) := cut '+' cs
  let (core, pre) := cut '-' before
  ⟨Text.splitOn '.' core, pre, build⟩

/-- An absent part is well formed, a present one if every identifier of it is. -/
def optional (valid : List Char → Bool) : Option (List Char) → Bool
  | none => true
  | some cs => (Text.splitOn '.' cs).all valid

/-- The version that a text writes, and otherwise why there is none. -/
def parseChars (cs : List Char) : Except Problem Version :=
  let parts := partsOf cs
  match parts.numbers with
  | [major, minor, patch] =>
    if isNumber major && isNumber minor && isNumber patch &&
        optional isPreIdentifier parts.pre && optional isBuildIdentifier parts.build then
      if [major, minor, patch].any (Text.digitLimit < ·.length) then .error .oversized
      else .ok
        { major := Text.decimalValue major
          minor := Text.decimalValue minor
          patch := Text.decimalValue patch
          pre := String.ofList (parts.pre.getD [])
          build := String.ofList (parts.build.getD []) }
    else .error (.malformed (String.ofList cs))
  | _ => .error (.malformed (String.ofList cs))

/-- The version that a text writes, and otherwise why there is none. -/
def parse (s : String) : Except Problem Version :=
  parseChars s.toList

/-- The version that a value writes; only a text can. -/
def ofDatum : Datum → Except Problem Version
  | .text s => parse s
  | d => .error (.notText d.quoted)

end CrateGate.Version
