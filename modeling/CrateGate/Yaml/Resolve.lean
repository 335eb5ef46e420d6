import CrateGate.Datum
import CrateGate.Text.Blank
import CrateGate.Text.Digit
import CrateGate.Yaml.Problem
import CrateGate.Yaml.Value

/-!
# Kinds of scalars

Which kind of value a plain scalar is by its form, and what a scalar of a kind comes to. A form may
be followed by one line feed. A tag can ask for a kind that the text does not have the form of; then
the text is read more leniently, and may still have no value.
-/

namespace CrateGate.Yaml

/-- The kinds of nodes. -/
inductive Kind
  | null
  | flag
  | integer
  | real
  | moment
  | bytes
  | text
  | list
  | mapping
  | set
  | orderedMap
  | pairs
  | merge
  | default
  | unknown
deriving DecidableEq, Repr

/-- The kind that a tag asks for. -/
def Kind.ofTag (tag : String) : Kind :=
  let known : List (String × Kind) :=
    [("null", .null), ("bool", .flag), ("int", .integer), ("float", .real),
      ("timestamp", .moment), ("binary", .bytes), ("str", .text), ("seq", .list),
      ("map", .mapping), ("set", .set), ("omap", .orderedMap), ("pairs", .pairs),
      ("merge", .merge), ("value", .default)]
  ((known.find? fun (name, _) => "tag:yaml.org,2002:" ++ name = tag).map (·.2)).getD .unknown

/-! ## Forms of plain scalars -/

/-- Digits that may have underscores among them. -/
def isSpacedDigit (c : Char) : Bool :=
  c.isDigit || c = '_'

/-- A text without the sign it may start with. -/
def unsigned : List Char → List Char
  | '-' :: rest => rest
  | '+' :: rest => rest
  | cs => cs

/-- A digit, then digits and underscores, then a text that passes a test. -/
def afterWhole (test : List Char → Bool) : List Char → Bool
  | c :: rest => c.isDigit && test (rest.dropWhile isSpacedDigit)
  | [] => false

/-- A number below 60 of one or two digits, and what follows it. -/
def sixtieth? : List Char → Option (List Char)
  | ':' :: a :: b :: rest =>
    if '0' ≤ a && a ≤ '5' && b.isDigit then some rest
    else if a.isDigit then some (b :: rest)
    else none
  | [':', a] => if a.isDigit then some [] else none
  | _ => none

/-- One or more numbers below 60, each after a colon, and then a text that passes a test. -/
def afterSixtieths (test : List Char → Bool) : Nat → List Char → Bool
  | 0, _ => false
  | fuel + 1, cs =>
    match sixtieth? cs with
    | none => false
    | some rest => test rest || afterSixtieths test fuel rest

/-- The form of an integer: binary, octal, decimal, hexadecimal, or in the base 60. -/
def isIntegerForm (cs : List Char) : Bool :=
  match unsigned cs with
  | '0' :: 'b' :: rest => !rest.isEmpty && rest.all fun c => c = '0' || c = '1' || c = '_'
  | '0' :: 'x' :: rest => !rest.isEmpty && rest.all fun c => Text.isHexDigit c || c = '_'
  | '0' :: rest => rest.all fun c => ('0' ≤ c && c ≤ '7') || c = '_'
  | c :: rest =>
    c.isDigit && (rest.all isSpacedDigit ||
      afterSixtieths List.isEmpty (rest.length + 1) (rest.dropWhile isSpacedDigit))
  | [] => false

/-- Nothing, or an exponent with a sign. -/
def isExponentEnd : List Char → Bool
  | [] => true
  | e :: sign :: rest =>
    (e = 'e' || e = 'E') && (sign = '-' || sign = '+') && !rest.isEmpty && rest.all Char.isDigit
  | _ => false

/-- A point, then digits and underscores, then perhaps an exponent. -/
def isFractionEnd : List Char → Bool
  | '.' :: rest => isExponentEnd (rest.dropWhile isSpacedDigit)
  | _ => false

/-- A point, then digits and underscores. -/
def isPointEnd : List Char → Bool
  | '.' :: rest => rest.all isSpacedDigit
  | _ => false

/-- The form of a number with a point, or of infinity, or of the value that is no number. -/
def isRealForm (cs : List Char) : Bool :=
  let us := unsigned cs
  let base60 (us : List Char) : Bool :=
    afterSixtieths isPointEnd (us.length + 1) ((us.drop 1).dropWhile isSpacedDigit)
  let named (name : String) : Bool := String.ofList us = name
  afterWhole isFractionEnd us ||
    (cs.head? = some '.' && afterWhole isExponentEnd (cs.drop 1)) ||
    (us.head?.any Char.isDigit && base60 us) ||
    named ".inf" || named ".Inf" || named ".INF" ||
    [".nan", ".NaN", ".NAN"].contains (String.ofList cs)

/-- From one to two digits, and what follows them: both ways if there are two. -/
def oneOrTwo (test : List Char → Bool) : List Char → Bool
  | a :: b :: rest => a.isDigit && (test (b :: rest) || (b.isDigit && test rest))
  | [a] => a.isDigit && test []
  | [] => false

/-- Two digits, and what follows them. -/
def two (test : List Char → Bool) : List Char → Bool
  | a :: b :: rest => a.isDigit && b.isDigit && test rest
  | _ => false

/-- A given character, and what follows it. -/
def exactly (x : Char) (test : List Char → Bool) : List Char → Bool
  | c :: rest => c = x && test rest
  | [] => false

/-- The zone at the end of a moment. -/
def isZone : List Char → Bool
  | ['Z'] => true
  | sign :: rest =>
    (sign = '-' || sign = '+') &&
      oneOrTwo (fun cs => cs.isEmpty || exactly ':' (two List.isEmpty) cs) rest
  | [] => false

/-- What may follow the seconds of a moment: a fraction, blanks, a zone. -/
def isMomentEnd (cs : List Char) : Bool :=
  let cs := if cs.head? = some '.' then (cs.drop 1).dropWhile Char.isDigit else cs
  cs.isEmpty || isZone (cs.dropWhile fun c => c = ' ' || c = '\t')

/-- The time after a date, with what stands between them. -/
def isTimePart : List Char → Bool
  | c :: rest =>
    let clock := oneOrTwo (exactly ':' (two (exactly ':' (two isMomentEnd))))
    if c = 'T' || c = 't' then clock rest
    else (c = ' ' || c = '\t') && clock (rest.dropWhile fun x => x = ' ' || x = '\t')
  | [] => false

/-- The form of a date, with what may follow it. -/
def isDateForm (test : List Char → Bool) (cs : List Char) : Bool :=
  two (two (exactly '-' (oneOrTwo (exactly '-' (oneOrTwo test))))) cs

/-- The form of a date of two digits each, or of a date and a time. -/
def isMomentForm (cs : List Char) : Bool :=
  two (two (exactly '-' (two (exactly '-' (two List.isEmpty))))) cs || isDateForm isTimePart cs

/-- The words for yes and no. -/
def flagWords : List String :=
  ["yes", "Yes", "YES", "no", "No", "NO", "true", "True", "TRUE", "false", "False", "FALSE",
    "on", "On", "ON", "off", "Off", "OFF"]

/-- The words for nothing. -/
def nullWords : List String :=
  ["~", "null", "Null", "NULL"]

/-- A text without one line feed at its end. -/
def withoutNewline (cs : List Char) : List Char :=
  if cs.getLast? = some '\n' then cs.dropLast else cs

/-- The characters of a text, with U+FFFD in the place of every half of a surrogate pair. No form of
a scalar has that character, so a text with a half in it has none of the forms. -/
def charactersOf (t : Text) : String :=
  String.ofList (t.letters.map fun a => a.char?.getD '\ufffd')

/-- The kind of a plain scalar. -/
def Kind.ofPlain (text : String) : Kind :=
  let cs := withoutNewline text.toList
  let word := String.ofList cs
  if flagWords.contains word then .flag
  else if isRealForm cs then .real
  else if isIntegerForm cs then .integer
  else if word = "<<" then .merge
  else if nullWords.contains word || text.isEmpty then .null
  else if isMomentForm cs then .moment
  else if word = "=" then .default
  else if ["!", "&", "*"].contains word then .unknown
  else .text

/-! ## Values of scalars -/

/-- The words for yes and no that a tag for flags accepts, in any case. -/
def readFlag (text : String) : Except Problem Plain :=
  let word := String.ofList (text.toList.map Char.toLower)
  if ["yes", "true", "on"].contains word then .ok (.flag true)
  else if ["no", "false", "off"].contains word then .ok (.flag false)
  else unexpected .badKey

/-- The value of a digit in bases up to 16; decimal digits of any script count. -/
def digitIn? (c : Char) : Option Nat :=
  match Text.digitValue? c with
  | some d => some d
  | none => Text.hexValue? c

/-- A text without the mark of its base, if it starts with it. -/
def withoutMark (mark : Char) : List Char → List Char
  | '0' :: c :: rest => if c.toLower = mark then rest else '0' :: c :: rest
  | cs => cs

/-- A number without the white space around it. The separators U+001C to U+001F are none here. -/
def trimNumber (cs : List Char) : List Char :=
  let isMargin (c : Char) : Bool := Text.isBlank c && !(0x1C ≤ c.toNat && c.toNat ≤ 0x1F)
  ((cs.dropWhile isMargin).reverse.dropWhile isMargin).reverse

/-- Whether a text is an integer in a base: white space around, a sign, the mark of the base, and
digits. -/
def isInteger (base : Nat) (mark : Option Char) (cs : List Char) : Bool :=
  let digits := unsigned (trimNumber cs)
  let digits := match mark with
    | some m => withoutMark m digits
    | none => digits
  !digits.isEmpty && digits.all (fun c => (digitIn? c).any (· < base)) &&
    (base ≠ 10 || digits.length ≤ Text.digitLimit)

/-- The integer of a text without its underscores. -/
def readInteger (text : String) : Except Problem Plain :=
  let cs := text.toList.filter (· ≠ '_')
  let us := unsigned cs
  let number (valid : Bool) : Except Problem Plain :=
    if valid then .ok .number else unexpected .badValue
  if cs.isEmpty then unexpected .badIndex
  else
    match us with
    | [] => unexpected .badIndex
    | ['0'] => .ok .number
    | '0' :: 'b' :: rest => number (isInteger 2 (some 'b') rest)
    | '0' :: 'x' :: rest => number (isInteger 16 (some 'x') rest)
    | '0' :: _ => number (isInteger 8 (some 'o') us)
    | us =>
      if us.contains ':' then number ((Text.splitOn ':' us).all (isInteger 10 none))
      else number (isInteger 10 none us)

/-- Nothing, or an exponent whose sign may be missing. -/
def isLooseExponent : List Char → Bool
  | [] => true
  | c :: rest => c = 'e' && Text.isDigits (unsigned rest)

/-- Whether a text in lower case is a number with or without a point and an exponent, or a name of
a number. White space may stand around it. -/
def isReal (cs : List Char) : Bool :=
  let us := unsigned (trimNumber cs)
  let (whole, rest) := us.span Text.isDigit
  let decimal :=
    match rest with
    | '.' :: rest =>
      let (places, rest) := rest.span Text.isDigit
      (!whole.isEmpty || !places.isEmpty) && isLooseExponent rest
    | rest => !whole.isEmpty && isLooseExponent rest
  decimal || ["inf", "infinity", "nan"].contains (String.ofList us)

/-- The most parts that a number with a point may have in the base 60: beyond that the powers of 60
are no numbers of that kind. -/
def partLimit : Nat := 174

/-- The number with a point of a text without its underscores. -/
def readReal (text : String) : Except Problem Plain :=
  let cs := (text.toList.filter (· ≠ '_')).map Char.toLower
  let us := unsigned cs
  let word := String.ofList us
  if cs.isEmpty then unexpected .badIndex
  else if word = ".inf" || word = ".nan" then .ok .number
  else
    let parts := Text.splitOn ':' us
    if !parts.all isReal then unexpected .badValue
    else if partLimit < parts.length then unexpected .tooLarge
    else .ok .number

/-- How the characters of a text in the base 64 fill groups of four: the place in the group, and
how many equals signs have come since. An equals sign that fills a group ends the text. -/
def fillsGroups : Nat → Nat → List Char → Bool
  | place, _, [] => place = 0
  | place, pads, c :: rest =>
    if c = '=' then
      if 2 ≤ place then if 4 ≤ place + pads + 1 then true else fillsGroups place (pads + 1) rest
      else fillsGroups place pads rest
    else if Text.isAlphanumeric c || c = '+' || c = '/' then fillsGroups ((place + 1) % 4) 0 rest
    else fillsGroups place pads rest

/-- The bytes of a text in the base 64; characters outside its alphabet do not count. -/
def readBase64 (text : String) : Except Problem Plain :=
  if text.toList.all (fun c => c.toNat < 128) && fillsGroups 0 0 text.toList then .ok .bytes
  else .error .malformed

/-- The numbers of a text, between whatever is no digit. -/
def numbersIn (cs : List Char) : List Nat :=
  let words := cs.splitBy fun a b => a.isDigit == b.isDigit
  (words.filter fun w => w.head?.any Char.isDigit).map Text.decimalValue

/-- Whether a zone is less than a day away from Greenwich. -/
def zoneExists (cs : List Char) : Bool :=
  match numbersIn cs with
  | [hour] => hour < 24
  | [hour, minute] => 60 * hour + minute < 24 * 60
  | _ => true

/-- Whether the time of day after a date exists, and its zone. -/
def clockExists (cs : List Char) : Bool :=
  let clock := cs.takeWhile fun c => c.isDigit || c = ':'
  let after := cs.drop clock.length
  let after := if after.head? = some '.' then (after.drop 1).dropWhile Char.isDigit else after
  match numbersIn clock with
  | [hour, minute, second] => hour < 24 && minute < 60 && second < 60 && zoneExists after
  | _ => true

/-- Whether a moment of that form exists. -/
def momentExists (cs : List Char) : Bool :=
  let date := cs.takeWhile fun c => c.isDigit || c = '-'
  let after := cs.drop date.length
  match numbersIn date with
  | [year, month, day] =>
    (Date.mk year month day).exists? && clockExists (after.dropWhile fun c => !c.isDigit)
  | _ => true

/-- The moment of a text. -/
def readMoment (text : String) : Except Problem Plain :=
  let cs := withoutNewline text.toList
  if !isDateForm (fun rest => rest.isEmpty || isTimePart rest) cs then unexpected .badAttribute
  else if momentExists cs then .ok .moment
  else unexpected .badValue

end CrateGate.Yaml
