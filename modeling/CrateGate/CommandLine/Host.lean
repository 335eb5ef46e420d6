import CrateGate.CommandLine.Arguments
import CrateGate.Discovery.Problem
import CrateGate.Yaml.Read

/-!
# Hosts

What a run of the program relies on besides its disk. It belongs to the libraries that the program
is installed with: how a YAML document is read, how the libraries word what is wrong with a file,
and what becomes of letters that are no options. Whatever is said of runs is said for every host.
-/

namespace CrateGate.CommandLine

/-- The libraries of an installation, as far as a run depends on them. -/
structure Host where
  /-- The reader of settings files. -/
  yaml : Yaml.Reader
  /-- What is said of manifests that are no documents or cannot be read. -/
  reasons : Discovery.Reasons
  /-- What becomes of letters that are written together with an option. -/
  letters : LetterRule

/-- The host that the program runs on here. It reads with the reader of this library, and its
wording of what is wrong with a file is one for all. -/
def Host.standard : Host where
  yaml := Yaml.read
  reasons := { malformed _ := "malformed document", unreadable _ _ := "malformed text" }
  letters := .refuse

end CrateGate.CommandLine
