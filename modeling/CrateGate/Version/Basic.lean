/-!
# Versions

A semantic version and its text. Two versions are equal if all five parts are; the text of one
need not tell them apart, since a version put together by hand may hold anything in its last two
parts.
-/

namespace CrateGate

/-- A semantic version. -/
structure Version where
  /-- The first number. -/
  major : Int
  /-- The second number. -/
  minor : Int
  /-- The third number. -/
  patch : Int
  /-- The pre-release identifiers with dots between them; empty for a release. -/
  pre : String
  /-- The build identifiers with dots between them; empty if there are none. -/
  build : String
deriving DecidableEq, Repr

namespace Version

/-- The numbers with dots between them. -/
def core (v : Version) : String :=
  toString v.major ++ "." ++ toString v.minor ++ "." ++ toString v.patch

/-- A mark and the text after it; nothing if there is no text. -/
def marked (mark text : String) : String :=
  if text.isEmpty then "" else mark ++ text

/-- The text of a version: its numbers, then the pre-release after a hyphen and the build after a
plus sign. -/
def render (v : Version) : String :=
  v.core ++ marked "-" v.pre ++ marked "+" v.build

instance : ToString Version :=
  ⟨render⟩

end Version

end CrateGate
