import CrateGate.Yaml.Cursor
import CrateGate.Yaml.Problem

/-!
# YAML texts as they come

A text comes in blocks. The first two are there before anything is read, and every further one comes
when a character of it is first looked at. So of a problem in the text and one with a later block
the former is found first, unless one has to look as far as the later block to find it.
-/

namespace CrateGate.Yaml

/-- A text as far as it can be had. -/
structure Stream where
  /-- The characters. -/
  chars : List Char
  /-- The problem that comes after them, if it is not just the end of the text. -/
  fault : Option Problem
deriving Repr

/-- How many blocks are there before anything is read. -/
def opening : Nat := 2

/-- The text that comes in some blocks, and then perhaps a problem. A block with a character that
may not stand in a YAML text is such a problem itself. -/
def Stream.ofBlocks (blocks : List (List Char)) (fault : Option Problem) : Stream :=
  let start := (blocks.take opening).flatten
  let more := blocks.drop opening
  let good := more.takeWhile (·.all isAllowed)
  if blocks.length < opening && fault.isSome then ⟨[], fault⟩
  else if !start.all isAllowed then ⟨[], some .malformed⟩
  else if good.length < more.length then ⟨start ++ good.flatten, some .malformed⟩
  else ⟨start ++ good.flatten, fault⟩

end CrateGate.Yaml
