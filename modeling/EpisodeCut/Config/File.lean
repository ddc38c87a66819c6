import EpisodeCut.Config.Parser
import EpisodeCut.Workspace.FileTree

/-!
# Configuration files

A configuration file is read as text and then parsed; a failure to read it names the file.
-/

set_option autoImplicit false

namespace EpisodeCut.Config

/-- The text of a configuration file. -/
def readFile (tree : FileTree) (path : Path) : Except Failure String :=
  match tree.readText path with
  | .ok text => .ok text
  | .error cause => .error (.unreadableConfiguration path cause)

/-- The specifications in a configuration file. -/
def parseFile (tree : FileTree) (path : Path) : Except Failure (List InputSpec) :=
  (readFile tree path).bind parse

end EpisodeCut.Config
