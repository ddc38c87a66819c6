import EpisodeCut.CommandLine.Execute
import EpisodeCut.Text.Terminal

/-!
# What the command line says about itself

The usage text, the wording of a refused command line (`UsageFault.message`), and what is said on
the error channel about a run (`errorText`). A refusal and a failure are worded there without
anything that gives orders to a terminal.
-/

set_option autoImplicit false

namespace EpisodeCut.CommandLine

open Text

/-- The usage text. -/
def usage : String :=
  "\n".intercalate
    ["Assemble an episode from punched-in audio, video and still-frame segments.",
     "",
     "Usage: episodecut [OPTIONS] <OUTPUT>",
     "",
     "Options:",
     "  -a, --audio <FILE>         Default audio input",
     "      --audio-stream <N>     Default audio stream index",
     "  -v, --video <FILE>         Default video input",
     "      --video-stream <N>     Default video stream index",
     "  -f, --frame <FILE>         Default still-frame input",
     "  -c, --config <FILE>        Segment configuration file",
     "      --frame-size <WxH>     Size of rasterized document pages",
     "  -d, --debug                Verbose logging",
     "  -q, --quiet                Only log warnings and errors",
     "  -k, --keep                 Keep temporary files",
     "      --no-normalise         Leave the loudness of the audio alone",
     "      --no-process-audio     Keep the channel layout of the audio",
     "      --no-process-video     Keep the pixel format of the video",
     "      --audio-codec <CODEC>  Codec of the audio",
     "      --video-codec <CODEC>  Codec of the video",
     "      --dry-run              Print the rendering command instead of running it",
     "      --dump-plan            Print the plan as JSON",
     "  -h, --help                 Print help",
     "  -V, --version              Print version"]

/-- The name and version of the program. -/
def version : String := "episodecut 0.1.0"

/-- The long name that stands for something on the command line. -/
def longName (named : Named) : String :=
  match longNames.find? (·.2 == named) with
  | some (name, _) => "--" ++ name
  | none => ""

/-- What the usage text calls the value of an option. -/
def ValueOption.placeholder : ValueOption → String
  | .audio | .video | .frame | .config => "<FILE>"
  | .audioStream | .videoStream => "<N>"
  | .frameSize => "<WxH>"
  | .audioCodec | .videoCodec => "<CODEC>"

/-- An option as a message shows it. -/
def ValueOption.shown (option : ValueOption) : String :=
  longName (.value option) ++ " " ++ option.placeholder

/-- Text from the command line, in quotes and in the style of what is wrong. -/
def faulty (text : String) : String :=
  "'" ++ Terminal.styled "33" text ++ "'"

/-- Something that is written as it stands, in quotes and in its style. -/
def verbatim (text : String) : String :=
  "'" ++ Terminal.styled "1" text ++ "'"

/-- Why a text is no number of a stream. -/
def streamFault (text : String) : String :=
  if text.toInt?.isSome then text ++ " is not in 0..=4294967295"
  else "invalid digit found in string"

/-- The wording of a refusal, with styles. -/
def UsageFault.message : UsageFault → String
  | .unknownOption name => "unexpected argument " ++ faulty name ++ " found"
  | .missingValue option =>
    "a value is required for " ++ verbatim option.shown ++ " but none was supplied"
  | .unexpectedValue name text =>
    "unexpected value " ++ faulty text ++ " for " ++ verbatim name ++
      " found; no more were expected"
  | .repeatedOption option =>
    "the argument " ++ faulty option.shown ++ " cannot be used multiple times"
  | .repeatedFlag flag =>
    "the argument " ++ faulty (longName (.flag flag)) ++ " cannot be used multiple times"
  | .invalidStream option text =>
    "invalid value " ++ faulty text ++ " for " ++ verbatim option.shown ++ ": " ++
      streamFault text
  | .invalidFrameSize text reason =>
    "invalid value " ++ faulty text ++ " for " ++ verbatim ValueOption.frameSize.shown ++ ": " ++
      reason
  | .emptyPath => "a value is required for a path but none was supplied"
  | .notText => "invalid UTF-8 was detected in one or more arguments"
  | .missingOutput => "the following required arguments were not provided:\n  <OUTPUT>"
  | .extraArgument text => "unexpected argument " ++ faulty text ++ " found"

/-- What is said about a refused command line. -/
def UsageFault.report (fault : UsageFault) : String :=
  Terminal.plain (Terminal.styled "31" "error:" ++ " " ++ fault.message ++
    "\n\nFor more information, try " ++ verbatim "--help" ++ ".")

/-- One line about a warning: its wording, then its values by name. -/
def warningLine (warning : Warning) : String :=
  " ".intercalate
    (("warning: " ++ warning.message) :: warning.fields.map fun (name, value) =>
      name ++ "=" ++ value)

/-- What the log says about a failure. -/
def logText (failure : Failure) : String :=
  Terminal.logged failure.report

/-- What is said in the end about a run that went wrong. -/
def Outcome.complaint : Outcome → List String
  | .failed failure => ["error: " ++ logText failure]
  | .interrupted => ["error: interrupted"]
  | .outside => ["error: the name of the output directory is no text"]
  | .stopped (.refused fault) => [fault.report]
  | _ => []

/-- Lines of text. -/
def linesText (lines : List String) : String :=
  String.join (lines.map (· ++ "\n"))

/-- Whether a warning arises when generated files are removed, after everything else. -/
def isLate : Warning → Bool
  | .artifactNotRemoved .. => true
  | _ => false

/-- Everything that is said on the error channel: the warnings of planning, what the renderer and the
run itself said, the warnings of removing files, and what went wrong. -/
def errorText (outcome : Outcome) (run : Run Bench) : String :=
  let early := run.warnings.filter (!isLate ·)
  let late := run.warnings.filter isLate
  linesText (early.map warningLine) ++ run.world.workspace.complaints ++
    linesText (late.map warningLine ++ outcome.complaint)

/-- What is printed in place of a run. -/
def Outcome.answer : Outcome → List String
  | .stopped .help => [usage]
  | .stopped .version => [version]
  | _ => []

end EpisodeCut.CommandLine
