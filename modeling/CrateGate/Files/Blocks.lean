import CrateGate.Text.Blank

/-!
# Texts in blocks

How a long text is handed out. The bytes of a file are decoded in chunks, and the text is handed out
in blocks of characters. Bytes that are no UTF-8 are noticed with the first chunk that cannot be
decoded, and no block is handed out for which that chunk is needed.
-/

namespace CrateGate.Files

/-- How many bytes are decoded at once. -/
def chunkSize : Nat := 8192

/-- How many characters a block has. -/
def blockSize : Nat := 4096

/-- A text as far as it can be handed out. -/
structure Blocks where
  /-- The blocks. -/
  blocks : List (List Char)
  /-- Whether bytes follow that cannot be decoded. -/
  broken : Bool
deriving Repr

/-- A text cut into blocks; only the last one may be shorter than the others. -/
def cut (size : Nat) : List Char → List (List Char)
  | [] => []
  | c :: rest => (c :: rest.take (size - 1)) :: cut size (rest.drop (size - 1))
termination_by cs => cs.length
decreasing_by
  simp only [List.length_drop, List.length_cons]
  omega

/-- Whether a byte goes on with a character. -/
def isTail (b : UInt8) : Bool :=
  0x80 ≤ b && b ≤ 0xBF

/-- Whether two bytes can start a character of three bytes at least. -/
def isStart (a b : UInt8) : Bool :=
  0xE0 ≤ a && a ≤ 0xF4 && isTail b && (a ≠ 0xE0 || 0xA0 ≤ b) && (a ≠ 0xED || b ≤ 0x9F) &&
    (a ≠ 0xF0 || 0x90 ≤ b) && (a ≠ 0xF4 || b ≤ 0x8F)

/-- Whether bytes are the start of a character, but not all of it. -/
def isPartial : List UInt8 → Bool
  | [] => true
  | [a] => 0xC2 ≤ a && a ≤ 0xF4
  | [a, b] => isStart a b
  | [a, b, c] => 0xF0 ≤ a && isStart a b && isTail c
  | _ => false

/-- The text of bytes that may end in the middle of a character, without that character. -/
def decodeSoFar? (bytes : ByteArray) : Option String :=
  [0, 1, 2, 3].findSome? fun k =>
    if k ≤ bytes.size && isPartial (bytes.extract (bytes.size - k) bytes.size).toList then
      String.fromUTF8? (bytes.extract 0 (bytes.size - k))
    else none

/-- The text of as many chunks as can be decoded, at most `n`. -/
def decodeChunks (bytes : ByteArray) : Nat → String
  | 0 => ""
  | n + 1 => (decodeSoFar? (bytes.extract 0 (chunkSize * (n + 1)))).getD (decodeChunks bytes n)

/-- The text of a file in blocks, with every line ending in `\n`. Before bytes that cannot be
decoded a carriage return is held back, since a line feed might follow it, and so is a block that is
not full. -/
def Blocks.ofBytes (bytes : ByteArray) : Blocks :=
  match String.fromUTF8? bytes with
  | some s => ⟨cut blockSize (Text.universalNewlines s.toList), false⟩
  | none =>
    let cs := (decodeChunks bytes (bytes.size / chunkSize + 1)).toList
    let cs := if cs.getLast? = some '\r' then cs.dropLast else cs
    let blocks := cut blockSize (Text.universalNewlines cs)
    ⟨blocks.filter fun block => block.length = blockSize, true⟩

end CrateGate.Files
