import EpisodeCut.FilterGraph.Compile
import EpisodeCut.Text.ShellWord

/-!
# The rendering command

The one invocation of the renderer that reads all inputs, applies the filter program and writes the
episode: as a list of arguments (`RenderCommand.arguments`), and as a line that can be pasted into a
shell (`RenderCommand.display`).
-/

set_option autoImplicit false

namespace EpisodeCut

/-- The parts of the rendering command. -/
structure RenderCommand where
  inputs : List InputEntry
  program : String
  hasAudio : Bool
  hasVideo : Bool
  flags : RenderFlags
  output : Path
  deriving DecidableEq, Repr

/-- The program that renders. -/
def renderTool : String :=
  "ffmpeg"

namespace RenderCommand

/-- The command that applies a filter graph to the registered inputs. -/
def ofGraph (graph : FilterGraph) (registry : Registry) (flags : RenderFlags) (output : Path) :
    RenderCommand where
  inputs := registry.entries
  program := graph.program
  hasAudio := graph.hasTrack .audio
  hasVideo := graph.hasTrack .video
  flags := flags
  output := output

/-- The arguments that open an input. -/
def inputArguments (entry : InputEntry) : List String :=
  entry.options ++ ["-i", entry.path]

/-- The pad from which the audio track is taken. -/
def audioPad (command : RenderCommand) : Pad :=
  if command.flags.normalise then .normalised else .joined .audio

/-- The arguments for the audio track. -/
def audioArguments (command : RenderCommand) : List String :=
  ["-codec:a", command.flags.audioCodec] ++ (if command.flags.mono then ["-ac", "1"] else []) ++
    ["-map", command.audioPad.text]

/-- The arguments for the video track. -/
def videoArguments (command : RenderCommand) : List String :=
  ["-codec:v", command.flags.videoCodec] ++
    (if command.flags.standardPixels then ["-pix_fmt", "yuv420p"] else []) ++
    ["-map", (Pad.joined .video).text]

/-- The arguments of the renderer. -/
def arguments (command : RenderCommand) : List String :=
  ["-y", "-nostdin"] ++ command.inputs.flatMap inputArguments ++
    ["-filter_complex", command.program] ++
    (if command.hasAudio then command.audioArguments else []) ++
    (if command.hasVideo then command.videoArguments else []) ++ [command.output]

/-- The command as a shell line. -/
def display (command : RenderCommand) : String :=
  Text.ShellWord.commandLine (renderTool :: command.arguments)

end RenderCommand

end EpisodeCut
