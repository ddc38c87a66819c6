import EpisodeCut.Config.Spec

/-!
# Default inputs

The files and streams that specifications use where they name none.
-/

set_option autoImplicit false

namespace EpisodeCut

/-- The default file and stream of one kind. -/
structure StreamDefault where
  file : Option String
  stream : Option UInt32
  deriving DecidableEq, Repr, Inhabited

/-- The defaults of all kinds. -/
structure Defaults where
  audio : StreamDefault
  video : StreamDefault
  frame : StreamDefault
  deriving DecidableEq, Repr, Inhabited

namespace Defaults

/-- The defaults of one kind. -/
def get (defaults : Defaults) : MediaKind → StreamDefault
  | .audio => defaults.audio
  | .video => defaults.video
  | .frame => defaults.frame

/-- Specifications of all default files, each of them whole. -/
def wholeFiles (defaults : Defaults) : List InputSpec :=
  MediaKind.all.filterMap fun kind =>
    (defaults.get kind).file.map fun file =>
      .whole kind file ((defaults.get kind).stream.getD 0)

end Defaults

end EpisodeCut
