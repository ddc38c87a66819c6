import EpisodeCut.CommandLine.Parser
import EpisodeCut.Config.File
import EpisodeCut.Episode.Json

/-!
# Running a command line

A command line plans an episode and renders it; on request it shows the plan, or stops short of
rendering and shows the command instead. Generated files are removed in the end, whether rendering
has succeeded or not, but a rehearsal has none (`CommandLine.run`).

Besides its workspace a run meets circumstances that are none of its doing (`Circumstances`). It can
be interrupted, which it notices before the two long stages and at the end; and a line that it wants
to say may not be taken. Nothing is done after that, so generated files stay behind
(`Outcome.silenced`).
-/

set_option autoImplicit false

namespace EpisodeCut.CommandLine

open Text

/-! ## Circumstances -/

/-- Where something is said. -/
inductive Channel where
  | output
  | error
  deriving DecidableEq, Repr

/-- When a run is interrupted: before a stage begins, or so late that only its end is affected. -/
inductive Interruption where
  | before (stage : Stage)
  | late
  deriving DecidableEq, Repr

/-- Whether an interruption has come by the time a stage begins. Rendering is the later stage. -/
def Interruption.reached : Interruption → Stage → Bool
  | .before .materialization, _ => true
  | .before .rendering, .rendering => true
  | _, _ => false

/-- What a run meets besides its workspace. -/
structure Circumstances where
  /-- Whether a channel takes a line. -/
  takes : Channel → String → Bool
  interruption : Option Interruption
  /-- The text of a file whose path is no text; the workspace has no such files. -/
  rawText : Raw → Except OsError String

namespace Circumstances

/-- Nothing comes in the way of a run. -/
def calm : Circumstances := ⟨fun _ _ => true, none, fun _ => .error .notFound⟩

/-- Whether the run is interrupted by the time a stage begins. -/
def interrupted (circumstances : Circumstances) (stage : Stage) : Bool :=
  circumstances.interruption.any (·.reached stage)

end Circumstances

/-! ## Outcomes -/

/-- How a run of the program ended. -/
inductive Outcome where
  /-- The episode was written to `output`. -/
  | wrote (output : Path)
  /-- Nothing was to be written. -/
  | shown
  | failed (failure : Failure)
  /-- The run was interrupted, however it went otherwise. -/
  | interrupted
  /-- A channel did not take a line, and nothing was done after that. -/
  | silenced (channel : Channel)
  /-- The output lies in a directory whose name is no text, and nothing was done. -/
  | outside
  /-- The command line was not carried out. -/
  | stopped (stop : Stop)
  deriving DecidableEq, Repr

/-- The exit status of the program. -/
def Outcome.exit : Outcome → Nat
  | .wrote _ | .shown => 0
  | .failed _ | .interrupted | .outside => 1
  | .silenced _ => 101
  | .stopped .help | .stopped .version => 0
  | .stopped (.refused _) => 2

/-- The outcome in the end, when an interruption is noticed that has come at any time. -/
def Circumstances.ending (circumstances : Circumstances) (outcome : Outcome) : Outcome :=
  if circumstances.interruption.isSome then .interrupted else outcome

/-! ## Runs -/

/-- What a channel keeps of a line. -/
def Channel.say (channel : Channel) (line : String) (workspace : Workspace) : Workspace :=
  match channel with
  | .output => workspace.display (line ++ "\n").toUTF8.toList
  | .error => workspace.complain (line ++ "\n")

/-- Write a line to a channel. -/
def writeLine (channel : Channel) (line : String) : Action (Run Bench) Unit :=
  modify fun run =>
    { run with world := { run.world with workspace := channel.say line run.world.workspace } }

/-- Say a line and go on, or end where the line is not taken. -/
def saying (circumstances : Circumstances) (channel : Channel) (line : String)
    (next : Action (Run Bench) Outcome) : Action (Run Bench) Outcome := do
  if circumstances.takes channel line then
    writeLine channel line
    next
  else pure (.silenced channel)

/-- Read the configuration file, if one is named. -/
def readConfig (circumstances : Circumstances) (path : Option Raw) :
    Action (Run Bench) (Option String) := do
  match path with
  | none => pure none
  | some path =>
    let run ← get
    let text ← Action.ofExcept <| match path.text? with
      | some path => Config.readFile run.world.workspace.tree path
      | none => (circumstances.rawText path).mapError (.unreadableConfiguration path.shown)
    pure (some text)

/-- Show the plan if that is asked for, which needs a path that is text, and go on. -/
def dumping (settings : Settings) (output : Raw) (circumstances : Circumstances) (plan : RenderPlan)
    (next : Action (Run Bench) Outcome) : Action (Run Bench) Outcome :=
  if settings.has .dumpPlan then
    match output.text? with
    | some _ => saying circumstances .output plan.toJson.pretty next
    | none => throw .planNotText
  else next

/-- What is done with a plan: it is rendered, or the command is shown instead. -/
def finish (settings : Settings) (studio : Studio Bench) (circumstances : Circumstances)
    (interrupted : Bool) (plan : RenderPlan) : Action (Run Bench) Outcome := do
  if settings.has .dryRun then
    saying circumstances .output plan.command.display (pure .shown)
  else
    Episode.render studio interrupted plan
    saying circumstances .error ("wrote " ++ plan.command.output) (pure (.wrote plan.command.output))

/-- Plan an episode, show what is asked for, and render unless it is a rehearsal. The tools are given
the path of the output as it is shown. -/
def produce (settings : Settings) (output : Raw) (studio : Studio Bench)
    (circumstances : Circumstances) (interrupted : Stage → Bool) : Action (Run Bench) Outcome := do
  let config ← readConfig circumstances (settings.path? .config)
  let plan ← Episode.plan studio (settings.episodeOptions output.shown)
    (interrupted .materialization) config
  dumping settings output circumstances plan
    (finish settings studio circumstances (interrupted .rendering) plan)

/-- The outcome of an action, and the state in which it left the run. -/
def outcomeOf (action : Action (Run Bench) Outcome) (run : Run Bench) : Outcome × Run Bench :=
  match action run with
  | .ok outcome run => (outcome, run)
  | .error failure run => (.failed failure, run)

/-- End a run in which `outcome` was reached: clean up, and take notice of an interruption. -/
def conclude (settings : Settings) (output : Raw) (circumstances : Circumstances)
    (outcome : Outcome) (run : Run Bench) : Outcome × Run Bench :=
  match outcome with
  | .silenced channel => (.silenced channel, run)
  | outcome =>
    let options := settings.episodeOptions output.shown
    let run := if settings.has .dryRun then run else (Episode.cleanup .ofTools options run).2
    (circumstances.ending outcome, run)

/-- Carry out settings in a workspace. A rehearsal does not stop at an interruption. -/
def execute (settings : Settings) (output : Raw) (circumstances : Circumstances)
    (workspace : Workspace) : Outcome × Run Bench :=
  let run := Run.start (Bench.start workspace)
  if settings.has .dryRun then
    let (outcome, run) :=
      outcomeOf (produce settings output .rehearsal circumstances fun _ => false) run
    conclude settings output circumstances outcome run
  else if output.strayDirectory then (.outside, run)
  else
    let (outcome, run) :=
      outcomeOf (produce settings output .ofTools circumstances circumstances.interrupted) run
    conclude settings output circumstances outcome run

/-- Carry out a command line in a workspace. -/
def run (arguments : List Raw) (circumstances : Circumstances) (workspace : Workspace) :
    Outcome × Run Bench :=
  match parse arguments with
  | .error stop => (.stopped stop, Run.start (Bench.start workspace))
  | .ok (settings, output) => execute settings output circumstances workspace

end EpisodeCut.CommandLine
