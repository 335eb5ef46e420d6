import CrateGate.Crate.Label
import CrateGate.Path
import CrateGate.Slip
import CrateGate.Version.Text

/-!
# Problems of discovery

What can be wrong with the manifests of a tree. Every problem has a code, a message, and where it
helps a path and details; all four are functions of the cause. Of a text that is no TOML document,
and of a file that cannot be read, the readers of these say what is wrong (`Reasons`).
-/

namespace CrateGate.Discovery

/-- What a version belongs to. -/
inductive Subject
  | crate (name : String)
  | pin (label owner : String)
deriving DecidableEq, Repr

/-- The subject at the start of a message. -/
def Subject.message : Subject → String
  | .crate name => "Crate '" ++ name ++ "'"
  | .pin label owner => "Local dependency '" ++ label ++ "' of '" ++ owner ++ "'"

/-- What is wrong with the manifests of a tree. A problem that some other discoverer found is
`reported` as it was worded there. -/
inductive Problem
  | malformed (manifest : Path) (text : String)
  | unreadable (manifest : Path) (slip : Slip)
  | packageNotTable (manifest : Path)
  | nameMissing (manifest : Path)
  | versionNotText (subject : Subject) (manifest : Path)
  | versionMalformed (subject : Subject) (why : Version.Problem) (manifest : Path)
  | publishNotFlag (crate : String) (manifest : Path)
  | pinConflict (crate : String) (label : Label) (earlier later : Version) (manifest : Path)
  | declaredTwice (crate : String) (earlier later : Path)
  | versionsDiffer (crate : String) (earlier later : Version)
  | unresolved (crate : String) (label : Label) (manifest : Path)
  | pinOutdated (crate : String) (label : Label) (pinned actual : Version) (manifest : Path)
  | pinUnpublished (crate : String) (label : Label) (manifest : Path)
  | cycle (walk stuck : List String)
  | noPackages (manifestName : Text) (location : Path)
  | missingLocation (location : Path)
  | reported (code message : String) (path : Option Path) (details : List String)
deriving DecidableEq, Repr

/-- What is said of manifests by those who read them. -/
structure Reasons where
  /-- Of a text that is no TOML document, as the reader of TOML took it. -/
  malformed : String → Text
  /-- Of a file that cannot be read, by what came of it. -/
  unreadable : Path → Slip → Text

namespace Problem

/-- The kind of a problem, for programs to read. -/
def code : Problem → String
  | malformed .. | unreadable .. | packageNotTable _ | nameMissing _ | versionNotText ..
  | versionMalformed .. | publishNotFlag .. => "MANIFEST_PARSE"
  | pinConflict .. | pinOutdated .. => "VERSION_CONFLICT"
  | declaredTwice .. | versionsDiffer .. => "DUPLICATE_PACKAGE"
  | unresolved .. | pinUnpublished .. => "UNRESOLVED_DEPENDENCY"
  | cycle .. => "DEPENDENCY_CYCLE"
  | noPackages .. => "NO_PACKAGES"
  | missingLocation _ => "MISSING_LOCATION"
  | reported code .. => code

/-- The wording of a problem, without its path. -/
def text (reasons : Reasons) : Problem → Text
  | malformed _ text => "Invalid TOML: " ++ reasons.malformed text
  | unreadable manifest slip => "Cannot read manifest: " ++ reasons.unreadable manifest slip
  | packageNotTable _ => "[package] must be a table"
  | nameMissing _ => "[package] is missing a name"
  | versionNotText subject _ => subject.message ++ " must declare a version string"
  | versionMalformed subject why _ => subject.message ++ ": " ++ why.message
  | publishNotFlag crate _ => "Crate '" ++ crate ++ "': publish must be a bool or list"
  | pinConflict crate label earlier later _ =>
    "'" ++ crate ++ "' declares '" ++ label.plain ++ "' at both '" ++ earlier.render ++
      "' and '" ++ later.render ++ "'"
  | declaredTwice crate _ _ => "Crate '" ++ crate ++ "' is declared more than once"
  | versionsDiffer crate earlier later =>
    "Crate '" ++ crate ++ "' declared at both '" ++ earlier.render ++ "' and '" ++
      later.render ++ "'"
  | unresolved crate label _ =>
    "Crate '" ++ crate ++ "' depends on '" ++ label.plain ++ "' which was not discovered"
  | pinOutdated crate label pinned actual _ =>
    "Crate '" ++ crate ++ "' depends on '" ++ label.plain ++ "' at '" ++ pinned.render ++
      "' but it is at '" ++ actual.render ++ "'"
  | pinUnpublished crate label _ =>
    "Crate '" ++ crate ++ "' is published but depends on unpublished '" ++ label.plain ++ "'"
  | cycle walk _ => "Dependency cycle detected: " ++ " -> ".intercalate walk
  | noPackages manifestName _ => "No '" ++ manifestName ++ "' with a [package] table found"
  | missingLocation location => "Not a directory: " ++ location.render
  | reported _ message _ _ => message

/-- Where the problem is, if it is in one place. -/
def path : Problem → Option Path
  | malformed manifest _ | unreadable manifest _ | packageNotTable manifest | nameMissing manifest
  | versionNotText _ manifest | versionMalformed _ _ manifest | publishNotFlag _ manifest
  | pinConflict _ _ _ _ manifest | unresolved _ _ manifest | pinOutdated _ _ _ _ manifest
  | pinUnpublished _ _ manifest => some manifest
  | noPackages _ location | missingLocation location => some location
  | declaredTwice .. | versionsDiffer .. | cycle .. => none
  | reported _ _ path _ => path

/-- What else there is to say: the places or the crates involved. -/
def details : Problem → List String
  | declaredTwice _ earlier later => [earlier.render, later.render]
  | cycle _ stuck => stuck
  | reported _ _ _ details => details
  | _ => []

/-- The wording of a problem, with its path in parentheses. -/
def message (reasons : Reasons) (p : Problem) : Text :=
  match p.path with
  | none => p.text reasons
  | some path => p.text reasons ++ " (" ++ path.render ++ ")"

end Problem

end CrateGate.Discovery
