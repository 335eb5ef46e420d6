import CrateGate.Files.Blocks
import CrateGate.Yaml.Making

/-!
# The reader of YAML documents

The reader that the program runs with: the bytes of a file are decoded block by block, the text is
cut into tokens, the tokens are composed to a graph, and the graph is computed. It looks as far into
the text as the next token needs, and down into a document as far as settings do. Its wording of
what is wrong with a document is one for all.
-/

namespace CrateGate.Yaml

/-- How deep a document has to be known: the document, a list in it, and the items of that. -/
def settingsDepth : Nat := 2

/-- The text of a file as it comes, from its bytes. -/
def streamOf (bytes : ByteArray) : Stream :=
  let text := Files.Blocks.ofBytes bytes
  .ofBlocks text.blocks (if text.broken then some (.unexpected .undecodable) else none)

/-- The reader that the program runs with. -/
def read : Reader := fun bytes =>
  match Value.ofStream settingsDepth (streamOf bytes) with
  | .ok v => .ok v
  | .error (.unexpected slip) => .error (.unexpected slip)
  | .error _ => .error (.malformed "malformed document")

end CrateGate.Yaml
