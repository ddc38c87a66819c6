import EpisodeCut.CommandLine.Usage

/-!
# The program

Reads the files that a command line names into a workspace, carries the command line out there, and
prints what comes of it. No external tool is started from here: each of them counts as missing, so
that an episode can be planned and its command shown as long as nothing has to be probed.
-/

set_option autoImplicit false

namespace EpisodeCut.CommandLine

/-- The media files that settings name. -/
def Settings.media (settings : Settings) : List Path :=
  [ValueOption.audio, .video, .frame].filterMap settings.text?

/-- The tree before any file has been read. -/
def bareTree : FileTree := .bare ["work"]

/-- Read a file into the tree, if there is such a file. -/
def loadFile (tree : FileTree) (path : Path) : IO FileTree := do
  try
    let content ← IO.FS.readBinFile path
    pure (tree.plant path content.toList)
  catch _ => pure tree

/-- Note in the tree that a file exists, if it does. -/
def loadPresence (tree : FileTree) (path : Path) : IO FileTree := do
  try
    let _ ← IO.FS.Handle.mk path .read
    pure (tree.plant path [])
  catch _ => pure tree

/-- The files that a command line leads to. -/
def loadTree (arguments : List Text.Raw) : IO FileTree :=
  match parse arguments with
  | .error _ => pure bareTree
  | .ok (settings, _) => do
    let config := (settings.path? .config).bind Text.Raw.text?
    let tree ← config.toList.foldlM loadFile bareTree
    let specs := config.toList.flatMap fun path =>
      match Config.parseFile tree path with
      | .ok specs => specs
      | .error _ => []
    (settings.media ++ specs.flatMap InputSpec.files).foldlM loadPresence tree

/-- Carry out the command line `arguments`; the answer is the exit status. What the run says is
printed when it has ended, so no line is refused while it goes on. -/
def serve (arguments : List String) : IO UInt32 := do
  let arguments := arguments.map Text.Raw.ofString
  let tree ← loadTree arguments
  let (outcome, run) := run arguments .calm ⟨tree, 0, [], .ofList [], [], [], ""⟩
  let console ← IO.getStdout
  console.write ⟨run.world.workspace.console.toArray⟩
  outcome.answer.forM fun line => IO.println line
  IO.eprint (errorText outcome run)
  pure (UInt32.ofNat outcome.exit)

end EpisodeCut.CommandLine

/-- The program. -/
def main (arguments : List String) : IO UInt32 :=
  EpisodeCut.CommandLine.serve arguments
