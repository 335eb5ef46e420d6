import CrateGate.Slip
import CrateGate.Text.Letter

/-!
# Values of YAML documents

What a reader of YAML documents makes of a file: a value, as far as settings look into it, or a
reason why there is none. Which reader that is makes no difference to the settings; all that is said
of them holds for every reader.
-/

namespace CrateGate.Yaml

/-- The value of a scalar. Of numbers, moments and bytes only the kind is kept. -/
inductive Plain
  | null
  | flag (b : Bool)
  | number
  | moment
  | bytes
  | text (t : Text)
deriving DecidableEq, Repr

/-- A value down to some depth. A collection that lies deeper is `deeper`; a set, which no reader
of settings looks into, is just that. -/
inductive Value
  | plain (p : Plain)
  | list (items : List Value)
  | mapping (pairs : List (Value × Value))
  | set
  | deeper
deriving Repr

namespace Value

mutual

/-- Whether two values are equal. -/
def same : Value → Value → Bool
  | plain p, plain q => p == q
  | list items, list others => sameItems items others
  | mapping pairs, mapping others => samePairs pairs others
  | set, set => true
  | deeper, deeper => true
  | _, _ => false

/-- Whether two lists hold equal values in one order. -/
def sameItems : List Value → List Value → Bool
  | [], [] => true
  | item :: items, other :: others => same item other && sameItems items others
  | _, _ => false

/-- Whether two lists hold pairs of equal values in one order. -/
def samePairs : List (Value × Value) → List (Value × Value) → Bool
  | [], [] => true
  | (key, value) :: pairs, (key', value') :: others =>
    same key key' && same value value' && samePairs pairs others
  | _, _ => false

end

mutual

/-- The comparison of values decides their equality; that of lists and that of pairs go along with
it, as values are made of both. -/
theorem same_iff : ∀ v w : Value, v.same w = true ↔ v = w
  | plain p, w => by cases w <;> simp [same]
  | list items, w => by cases w <;> simp [same, sameItems_iff items]
  | mapping pairs, w => by cases w <;> simp [same, samePairs_iff pairs]
  | set, w => by cases w <;> simp [same]
  | deeper, w => by cases w <;> simp [same]

/-- The comparison of lists decides their equality, item by item and in the order of the items. -/
theorem sameItems_iff : ∀ items others, sameItems items others = true ↔ items = others
  | [], others => by cases others <;> simp [sameItems]
  | item :: items, others => by
    cases others <;> simp [sameItems, same_iff item, sameItems_iff items]

/-- The comparison of pairs decides their equality, key and value by key and value, in their
order. -/
theorem samePairs_iff : ∀ pairs others, samePairs pairs others = true ↔ pairs = others
  | [], others => by cases others <;> simp [samePairs]
  | (key, value) :: pairs, others => by
    cases others <;> simp [samePairs, Prod.ext_iff, same_iff key, same_iff value,
      samePairs_iff pairs]

end

instance : DecidableEq Value :=
  fun v w => decidable_of_iff _ (same_iff v w)

end Value

/-! ## Readers -/

/-- Why a reader has no value for a file. Either the file is no YAML document, of which the reader
says what is wrong with it, or something else stopped the reader. -/
inductive Refusal
  | malformed (reason : Text)
  | unexpected (slip : Slip)
deriving DecidableEq, Repr

/-- A reader of YAML documents: what it makes of the bytes of a file. -/
abbrev Reader := ByteArray → Except Refusal Value

end CrateGate.Yaml
