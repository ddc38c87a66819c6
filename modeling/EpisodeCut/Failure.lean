import EpisodeCut.Config.Fault
import EpisodeCut.Json.Fault
import EpisodeCut.MediaKind
import EpisodeCut.Path
import EpisodeCut.Text.Position
import EpisodeCut.Timecode

/-!
# Failures

Every way in which an episode cannot be assembled is a constructor of `Failure` that carries its
cause. A failure belongs to one `Failure.Category`; `Failure.message` is its wording, and
`Failure.report` adds what the operating system said.
-/

set_option autoImplicit false

namespace EpisodeCut

/-- Refusals of the operating system. -/
inductive OsError where
  | notFound
  | alreadyExists
  | notDirectory
  | isDirectory
  | nameTooLong
  | argumentTooLong
  /-- A path with a NUL, which ends every path that is handed to the system. -/
  | nulInPath
  | nulInArgument
  | invalidText
  deriving DecidableEq, Repr

/-- The wording of a refusal. -/
def OsError.text : OsError → String
  | .notFound => "No such file or directory (os error 2)"
  | .alreadyExists => "File exists (os error 17)"
  | .notDirectory => "Not a directory (os error 20)"
  | .isDirectory => "Is a directory (os error 21)"
  | .nameTooLong => "File name too long (os error 36)"
  | .argumentTooLong => "Argument list too long (os error 7)"
  | .nulInPath => "file name contained an unexpected NUL byte"
  | .nulInArgument => "nul byte found in provided data"
  | .invalidText => "stream did not contain valid UTF-8"

/-- What went wrong with an external tool. -/
inductive ToolFault where
  | notOnPath
  | notStarted (cause : OsError)
  | exited (code : Nat) (stderr : String)
  | stopped (code : Nat)
  | invalidJson (complaint : Json.Complaint)
  | missingDuration
  | unreadableDuration (text : String)
  | uncountedFrames
  | missingFile
  | reported (text : String)
  deriving DecidableEq, Repr

/-- The stages before which a run can be interrupted. -/
inductive Stage where
  | materialization
  | rendering
  deriving DecidableEq, Repr

/-- The name of a stage. -/
def Stage.name : Stage → String
  | .materialization => "frame materialization"
  | .rendering => "render"

/-- Reasons why an episode cannot be planned or rendered. -/
inductive Failure where
  /-- The configuration text is refused at `position`. -/
  | malformed (position : Position) (fault : Config.Fault)
  | unreadableDuration (text : String)
  | timestampTooLarge (clock : ClockTime)
  | missingDefault (segment : Nat) (kind : MediaKind)
  | referenceAsPunchIn (file : String)
  | missingReference (segment : Nat) (file : String)
  | unreadableReference (segment : Nat) (file : String) (cause : Failure)
  | lastFrameOfStream (segment : Nat) (kind : MediaKind)
  | previousSegmentOfStream (segment : Nat)
  | renameUnregistered (old : String)
  | renameTaken (old new : String)
  | noInput
  | nothingLeft
  /-- The punch-out of a range lies before its punch-in. -/
  | reversedRange (segment : Nat) (punchIn punchOut : Timecode)
  | inputNotRegistered (segment : Nat) (input : String)
  /-- A frame of the previous segment is asked for where there is no previous segment. -/
  | noPredecessor (segment : Nat)
  | predecessorNotVideo (segment predecessor : Nat) (kind : MediaKind)
  | frameNotMaterialized (segment : Nat)
  | stillNotRendered (segment : Nat)
  /-- The image of a frame segment could not be produced. -/
  | frameFailed (segment : Nat) (cause : Failure)
  /-- `program` failed in an operation on `subject`. -/
  | tool (program operation : String) (subject : Path) (fault : ToolFault)
  | interrupted (stage : Stage)
  | unreadableConfiguration (path : Path) (cause : OsError)
  | uncreatedDirectory (path : Path) (cause : OsError)
  /-- A plan cannot be written as text, since a path in it is none. -/
  | planNotText
  deriving DecidableEq, Repr

namespace Failure

/-- The kinds of failure that a caller can tell apart. -/
inductive Category where
  | malformedText
  | configuration
  | timeline
  | chain
  | externalTool
  | interruption
  | system
  deriving DecidableEq, Repr

/-- The category of a failure. -/
def category : Failure → Category
  | .malformed .. => .malformedText
  | .unreadableDuration .. | .timestampTooLarge .. | .missingDefault .. | .referenceAsPunchIn ..
  | .missingReference .. | .unreadableReference .. | .lastFrameOfStream ..
  | .previousSegmentOfStream .. | .renameUnregistered .. | .renameTaken .. | .noInput
  | .nothingLeft => .configuration
  | .reversedRange .. | .inputNotRegistered .. => .timeline
  | .noPredecessor .. | .predecessorNotVideo .. | .frameNotMaterialized ..
  | .stillNotRendered .. | .frameFailed .. => .chain
  | .tool .. => .externalTool
  | .interrupted .. => .interruption
  | .unreadableConfiguration .. | .uncreatedDirectory .. | .planNotText => .system

/-- The wording of a configuration error. -/
def configurationText (detail : String) : String :=
  "configuration error: " ++ detail

/-- The wording of an error in the timeline of a segment. -/
def timelineText (segment : Nat) (detail : String) : String :=
  s!"timeline error in segment {segment}: " ++ detail

/-- The wording of an error in producing the frame of a segment. -/
def chainText (segment : Nat) (detail : String) : String :=
  s!"frame chain error in segment {segment}: " ++ detail

/-- The wording for a duration that is no decimal number of seconds or is too large. -/
def unreadableDurationText (text : String) : String :=
  configurationText ("unreadable duration '" ++ text ++ "'")

end Failure

/-- The wording of a tool's fault. -/
def ToolFault.text : ToolFault → String
  | .notOnPath => "not found on PATH (cannot find binary path)"
  | .notStarted cause => "failed to start: " ++ cause.text
  | .exited code stderr => s!"exit status: {code}: " ++ stderr
  | .stopped code => s!"exit status: {code}"
  | .invalidJson complaint => "invalid json: " ++ complaint.text
  | .missingDuration => "no duration"
  | .unreadableDuration text => Failure.unreadableDurationText text
  | .uncountedFrames => "no nb_frames for the video stream"
  | .missingFile => "file does not exist"
  | .reported text => text

namespace Failure

/-- The wording of a failure. -/
def message : Failure → String
  | .malformed position fault =>
    s!"syntax error at line {position.line}, column {position.column}: " ++ fault.text ++
      " (near '" ++ position.fragment ++ "')"
  | .unreadableDuration text => unreadableDurationText text
  | .timestampTooLarge clock =>
    configurationText ("timestamp " ++ clock.text ++ " is out of range")
  | .missingDefault segment kind =>
    configurationText (s!"segment {segment}: attempting to use default " ++ kind.name ++
      " input, but --" ++ kind.name ++ " hasn't been specified")
  | .referenceAsPunchIn file =>
    configurationText ("unreadable timestamp: duration reference '@" ++ file ++
      "' used as a punch-in point")
  | .missingReference segment file =>
    configurationText (s!"segment {segment}: duration reference target '@" ++ file ++
      "' does not exist")
  | .unreadableReference segment file cause =>
    configurationText (s!"segment {segment}: cannot read duration of '@" ++ file ++ "': " ++
      cause.message)
  | .lastFrameOfStream segment kind =>
    configurationText (kind.name ++ s!" input of segment {segment} cannot select the last frame")
  | .previousSegmentOfStream segment =>
    configurationText s!"'^' is only valid for frame inputs (segment {segment})"
  | .renameUnregistered old =>
    configurationText ("cannot rename unregistered input '" ++ old ++ "'")
  | .renameTaken old new =>
    configurationText ("cannot rename '" ++ old ++ "' to '" ++ new ++ "': already registered")
  | .noInput => configurationText "must specify at least one input"
  | .nothingLeft =>
    configurationText "no segments left to render: every punch range was zero-length"
  | .reversedRange segment punchIn punchOut =>
    timelineText segment ("punch-out " ++ punchOut.clock ++ " precedes punch-in " ++ punchIn.clock)
  | .inputNotRegistered segment input =>
    timelineText segment ("input '" ++ input ++ "' is not registered")
  | .noPredecessor segment =>
    chainText segment "'^' refers to the previous segment, but there is none"
  | .predecessorNotVideo segment predecessor kind =>
    chainText segment (s!"'^' refers to segment {predecessor}, which is " ++ kind.name ++
      " rather than video")
  | .frameNotMaterialized segment => chainText segment "frame has not been materialized"
  | .stillNotRendered segment => chainText segment "a still frame has no media to render"
  | .frameFailed segment cause => chainText segment cause.message
  | .tool program operation subject fault =>
    "external tool error: " ++ program ++ " " ++ operation ++ " failed for '" ++ subject ++ "': " ++
      fault.text
  | .interrupted stage => "interrupted before " ++ stage.name
  | .unreadableConfiguration path _ => "read configuration '" ++ path ++ "'"
  | .uncreatedDirectory path _ => "create output directory '" ++ path ++ "'"
  | .planNotText => "serialize plan"

/-- The wording of a failure together with what caused it outside. -/
def report (failure : Failure) : String :=
  match failure with
  | .unreadableConfiguration _ cause | .uncreatedDirectory _ cause =>
    failure.message ++ ": " ++ cause.text
  | .planNotText => failure.message ++ ": path contains invalid UTF-8 characters"
  | _ => failure.message

end Failure

end EpisodeCut
