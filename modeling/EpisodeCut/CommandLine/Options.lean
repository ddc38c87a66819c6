import EpisodeCut.Episode.Basic
import EpisodeCut.Text.Raw

/-!
# Options of the command line

The options by name, the values that they take, and what a complete command line sets
(`Settings`). Values are read from text; the paths of the output and of the configuration may be
anything that the operating system hands over.
-/

set_option autoImplicit false

namespace EpisodeCut.CommandLine

open Text

/-- Options that take a value. -/
inductive ValueOption where
  | audio
  | audioStream
  | video
  | videoStream
  | frame
  | config
  | frameSize
  | audioCodec
  | videoCodec
  deriving DecidableEq, Repr

/-- Options that take none. -/
inductive Flag where
  | debug
  | quiet
  | keep
  | noNormalise
  | noProcessAudio
  | noProcessVideo
  | dryRun
  | dumpPlan
  deriving DecidableEq, Repr

/-- What a name on the command line stands for. -/
inductive Named where
  | value (option : ValueOption)
  | flag (flag : Flag)
  | help
  | version
  deriving DecidableEq, Repr

/-- The names that follow two dashes. -/
def longNames : List (String × Named) :=
  [("audio", .value .audio), ("audio-stream", .value .audioStream), ("video", .value .video),
   ("video-stream", .value .videoStream), ("frame", .value .frame), ("config", .value .config),
   ("frame-size", .value .frameSize), ("audio-codec", .value .audioCodec),
   ("video-codec", .value .videoCodec), ("debug", .flag .debug), ("quiet", .flag .quiet),
   ("keep", .flag .keep), ("no-normalise", .flag .noNormalise),
   ("no-process-audio", .flag .noProcessAudio), ("no-process-video", .flag .noProcessVideo),
   ("dry-run", .flag .dryRun), ("dump-plan", .flag .dumpPlan), ("help", .help),
   ("version", .version)]

/-- The letters that follow one dash. -/
def shortNames : List (Char × Named) :=
  [('a', .value .audio), ('v', .value .video), ('f', .value .frame), ('c', .value .config),
   ('d', .flag .debug), ('q', .flag .quiet), ('k', .flag .keep), ('h', .help), ('V', .version)]

/-- The value of an option that has been read. -/
inductive OptionValue where
  | text (text : String)
  | path (path : Raw)
  | stream (n : UInt32)
  | size (size : FrameSize)
  deriving DecidableEq, Repr

/-- Why a command line is refused. -/
inductive UsageFault where
  | unknownOption (name : String)
  | missingValue (option : ValueOption)
  /-- A name that takes no value has the value `text`. -/
  | unexpectedValue (name text : String)
  | repeatedOption (option : ValueOption)
  | repeatedFlag (flag : Flag)
  | invalidStream (option : ValueOption) (text : String)
  | invalidFrameSize (text reason : String)
  | emptyPath
  /-- A value that has to be text is none. -/
  | notText
  | missingOutput
  | extraArgument (text : String)
  deriving DecidableEq, Repr

/-- Read a whole number with an optional sign that is not negative. -/
def streamNumber? (s : List Char) : Option UInt32 :=
  if s.head? = some '-' then
    if Numeral.read? (s.drop 1) = some 0 then some 0 else none
  else
    (Numeral.readBelow? UInt32.size s).map UInt32.ofNat

/-- Read one dimension of a frame size. -/
def dimension (whole : String) (part : List Char) : Except UsageFault UInt32 :=
  match (Numeral.readBelow? UInt32.size (trim part)).filter (0 < ·) with
  | some n => .ok (UInt32.ofNat n)
  | none =>
    .error (.invalidFrameSize whole
      ("invalid dimension '" ++ String.ofList part ++ "' in '" ++ whole ++ "'"))

/-- Read a frame size: two dimensions with an `x` between them. -/
def frameSize (text : String) : Except UsageFault FrameSize :=
  let isTimes (c : Char) : Bool := c == 'x' || c == 'X'
  if text.toList.any isTimes then do
    let width ← dimension text (text.toList.takeWhile (!isTimes ·))
    let height ← dimension text ((text.toList.dropWhile (!isTimes ·)).drop 1)
    .ok ⟨width, height⟩
  else
    .error (.invalidFrameSize text ("expected WIDTHxHEIGHT, got '" ++ text ++ "'"))

/-- Read the value of an option that has to be text. -/
def textValue (option : ValueOption) (text : String) : Except UsageFault OptionValue :=
  match option with
  | .audioStream | .videoStream =>
    match streamNumber? text.toList with
    | some n => .ok (.stream n)
    | none => .error (.invalidStream option text)
  | .frameSize => (frameSize text).map .size
  | _ => .ok (.text text)

/-- Read the value of an option. -/
def optionValue (option : ValueOption) (value : Raw) : Except UsageFault OptionValue :=
  match option with
  | .config => if value.isEmpty then .error .emptyPath else .ok (.path value)
  | _ =>
    match value.text? with
    | some text => textValue option text
    | none => .error .notText

/-- What a command line sets: the output, the options with their values, and the flags. -/
structure Settings where
  output : Option Raw
  values : List (ValueOption × OptionValue)
  flags : List Flag
  deriving DecidableEq, Repr, Inhabited

namespace Settings

/-- Nothing is set. -/
def empty : Settings := ⟨none, [], []⟩

/-- Set an option, which can be done once. -/
def setValue (settings : Settings) (option : ValueOption) (value : Raw) :
    Except UsageFault Settings :=
  match settings.values.lookup option with
  | some _ => .error (.repeatedOption option)
  | none =>
    (optionValue option value).map fun value =>
      { settings with values := settings.values ++ [(option, value)] }

/-- Set a flag, which can be done once. -/
def setFlag (settings : Settings) (flag : Flag) : Except UsageFault Settings :=
  if settings.flags.contains flag then .error (.repeatedFlag flag)
  else .ok { settings with flags := settings.flags ++ [flag] }

/-- Whether a flag is set. -/
def has (settings : Settings) (flag : Flag) : Bool :=
  settings.flags.contains flag

/-- The text that an option is set to. -/
def text? (settings : Settings) (option : ValueOption) : Option String :=
  match settings.values.lookup option with
  | some (.text text) => some text
  | _ => none

/-- The path that an option is set to. -/
def path? (settings : Settings) (option : ValueOption) : Option Raw :=
  match settings.values.lookup option with
  | some (.path path) => some path
  | _ => none

/-- The stream that an option is set to. -/
def stream? (settings : Settings) (option : ValueOption) : Option UInt32 :=
  match settings.values.lookup option with
  | some (.stream n) => some n
  | _ => none

/-- The size that an option is set to. -/
def size? (settings : Settings) (option : ValueOption) : Option FrameSize :=
  match settings.values.lookup option with
  | some (.size size) => some size
  | _ => none

/-- The rendering flags that the settings ask for. -/
def renderFlags (settings : Settings) : RenderFlags where
  mono := !settings.has .noProcessAudio
  standardPixels := !settings.has .noProcessVideo
  normalise := !settings.has .noNormalise
  audioCodec := (settings.text? .audioCodec).getD RenderFlags.standard.audioCodec
  videoCodec := (settings.text? .videoCodec).getD RenderFlags.standard.videoCodec

/-- The options of an episode that is written to `output`. -/
def episodeOptions (settings : Settings) (output : Path) : EpisodeOptions where
  output := output
  defaults :=
    { audio := ⟨settings.text? .audio, settings.stream? .audioStream⟩
      video := ⟨settings.text? .video, settings.stream? .videoStream⟩
      frame := ⟨settings.text? .frame, none⟩ }
  flags := settings.renderFlags
  frameSize := settings.size? .frameSize
  keep := settings.has .keep

end Settings

end EpisodeCut.CommandLine
