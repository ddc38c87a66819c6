import EpisodeCut.MediaKind
import EpisodeCut.Path
import EpisodeCut.Text.Numeral

/-!
# Generated files

Images and clips that are made on the way to an episode stand beside it. Their names follow from
the output, the kind of media and the number of the segment (`ArtifactNames.path`). Each is
recorded before it is written (`Artifacts.push`), so that it can be removed in the end.
-/

set_option autoImplicit false

namespace EpisodeCut

/-- The directory of the output, and the part of its name that generated names contain. -/
structure ArtifactNames where
  directory : Path
  stem : String
  deriving DecidableEq, Repr

namespace ArtifactNames

/-- Names beside `output`. -/
def ofOutput (output : Path) : ArtifactNames where
  directory := output.parent?.getD ""
  stem := output.fileStem?.getD "output"

/-- The name of the file that holds segment `number` as media of a kind. -/
def fileName (names : ArtifactNames) (kind : MediaKind) (number : Nat) : String :=
  "temp_" ++ kind.name ++ "_" ++ names.stem ++ "_" ++ Text.Numeral.padded 3 number ++ "." ++
    kind.extension

/-- The path of the file that holds segment `number` as media of a kind. -/
def path (names : ArtifactNames) (kind : MediaKind) (number : Nat) : Path :=
  names.directory.join (names.fileName kind number)

end ArtifactNames

/-- Paths of generated files, the oldest one first. -/
structure Artifacts where
  paths : List Path
  deriving DecidableEq, Repr, Inhabited

namespace Artifacts

/-- No generated files. -/
def empty : Artifacts := ⟨[]⟩

/-- Record a path, unless the same path is recorded already. -/
def push (artifacts : Artifacts) (path : Path) : Artifacts :=
  if artifacts.paths.any (·.same path) then artifacts else ⟨artifacts.paths ++ [path]⟩

end Artifacts

end EpisodeCut
