import CrateGate.Yaml.Cursor
import CrateGate.Yaml.Problem

/-!
# Tokens of YAML

The pieces of a YAML text: marks of structure, properties of nodes, and scalars. The start and the
end of a block are tokens too, though nothing but the indentation shows them.
-/

namespace CrateGate.Yaml

/-- A directive before a document. -/
inductive Directive
  | version (major : Nat)
  | tag (handle start : String)
  | other
deriving DecidableEq, Repr

/-- A piece of a YAML text. -/
inductive Token
  | streamEnd
  | directive (d : Directive)
  | documentStart
  | documentEnd
  | blockSequenceStart
  | blockMappingStart
  | blockEnd
  | flowSequenceStart
  | flowSequenceEnd
  | flowMappingStart
  | flowMappingEnd
  | blockEntry
  | flowEntry
  | key
  | value
  | alias (name : String)
  | anchor (name : String)
  | tag (handle : Option String) (suffix : String)
  | scalar (text : Text) (plain : Bool)
deriving DecidableEq, Repr

/-- Characters of names of anchors, directives and tag handles. -/
def isNameChar (c : Char) : Bool :=
  c.isAlphanum || c = '-' || c = '_'

/-- The failure of a token that cannot go on at a place: at the end of the text it is only not
finished. -/
def Cursor.fail {α : Type} (c : Cursor) : Except Problem α :=
  .error (if c.rest.isEmpty then .unfinished else .malformed)

/-- Looking as far as the character `k` places on, which cannot be done where the text is cut off
before it. -/
def Cursor.look (c : Cursor) (k : Nat) : Except Problem Unit :=
  if c.endsBefore k then .error .unfinished else .ok ()

end CrateGate.Yaml
