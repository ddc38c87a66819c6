import EpisodeCut.Config.Parser
import EpisodeCut.Episode.Studio
import EpisodeCut.Frame.Chain
import EpisodeCut.Timeline.Resolve

/-!
# Episodes

From configuration text to an episode: `Episode.plan` reads the configuration, resolves it into a
timeline, produces the images and compiles the rendering command; `Episode.render` carries the
command out; `Episode.cleanup` removes the generated files. A run can be interrupted before its two
long stages.
-/

set_option autoImplicit false

namespace EpisodeCut

/-- What an episode needs to know besides its configuration. -/
structure EpisodeOptions where
  output : Path
  defaults : Defaults
  flags : RenderFlags
  /-- The size of rasterized pages; if it is not set, the size of the video decides. -/
  frameSize : Option FrameSize
  /-- Leave generated files where they are. -/
  keep : Bool
  deriving DecidableEq, Repr

/-- What will be rendered, and how. -/
structure RenderPlan where
  timeline : ResolvedTimeline
  inputs : List InputEntry
  program : String
  command : RenderCommand
  deriving DecidableEq, Repr

namespace Episode

variable {σ : Type}

/-- The specifications of an episode. Where the configuration has none, all default files are used
whole. -/
def specsOf (defaults : Defaults) (config : Option String) : Except Failure (List InputSpec) := do
  let specs ← match config with
    | some text => Config.parse text
    | none => .ok []
  if !specs.isEmpty then .ok specs
  else if !defaults.wholeFiles.isEmpty then .ok defaults.wholeFiles
  else .error .noInput

/-- Stop before a stage if the run is interrupted. -/
def checkInterrupt (interrupted : Bool) (stage : Stage) : Except Failure Unit :=
  if interrupted then .error (.interrupted stage) else .ok ()

/-- Whether a segment shows a page that has to be rasterized. -/
def needsPage (segment : Segment) : Bool :=
  match segment.pendingSource? with
  | some (.document ..) => true
  | _ => false

/-- The picture size of the first video segment for which it is known. -/
def pictureSize (probe : Probe σ) : List Segment → Action (Run σ) FrameSize
  | [] => pure .standard
  | segment :: rest => do
    let run ← get
    if segment.kind = .video ∧ probe.present segment.input run.world then
      match ← Run.inWorld (probe.videoSize segment.input) with
      | some size => pure size
      | none => pictureSize probe rest
    else
      pictureSize probe rest

/-- The size at which pages are rasterized. The videos are not asked if there are no pages. -/
def frameSize (options : EpisodeOptions) (probe : Probe σ) (timeline : Timeline) :
    Action (Run σ) FrameSize :=
  match options.frameSize with
  | some size => pure size
  | none =>
    if timeline.segments.any needsPage then pictureSize probe timeline.segments
    else pure .standard

/-- The plan for a timeline with all its images, given the registered inputs. -/
def planOf (options : EpisodeOptions) (timeline : ResolvedTimeline) (registry : Registry) :
    Except Failure RenderPlan :=
  (FilterGraph.compile timeline registry options.flags).map fun graph =>
    { timeline := timeline
      inputs := registry.entries
      program := graph.program
      command := .ofGraph graph registry options.flags options.output }

/-- Plan an episode. The draft of the run begins anew; its generated files stay recorded. -/
def plan (studio : Studio σ) (options : EpisodeOptions) (interrupted : Bool)
    (config : Option String) : Action (Run σ) RenderPlan := do
  modify fun run => { run with draft := .empty }
  let specs ← Action.ofExcept (specsOf options.defaults config)
  let timeline ← Timeline.resolve options.defaults studio.probe specs
  if timeline.isEmpty then throw .nothingLeft
  Action.ofExcept (checkInterrupt interrupted .materialization)
  let size ← frameSize options studio.probe timeline
  let resolved ← timeline.materialize (.ofOutput options.output) size studio.materializer
  let run ← get
  Action.ofExcept (planOf options resolved run.draft.registry)

/-- Render an episode. What the renderer says goes to the user. -/
def renderIn (interrupted : Bool) (plan : RenderPlan) : Action Workspace Unit := do
  Action.ofExcept (checkInterrupt interrupted .rendering)
  Workspace.makeParent plan.command.output
  let reply ← Workspace.runTool renderTool "render" plan.command.output plan.command.arguments
  modify fun workspace => (workspace.display reply.stdout).complain reply.stderr
  if reply.exit ≠ 0 then
    throw (.tool renderTool "render" plan.command.output (.stopped reply.exit.toNat))

/-- Render an episode in a studio. -/
def render (studio : Studio σ) (interrupted : Bool) (plan : RenderPlan) : Action (Run σ) Unit :=
  Run.inWorld ((renderIn interrupted plan).within studio.workspace studio.setWorkspace)

/-- What comes of removing generated files. -/
structure Removal where
  workspace : Workspace
  /-- The number of files that were removed. -/
  count : Nat
  warnings : List Warning

/-- Remove one generated file. A file that does not exist needs no removal. -/
def removeOne (removal : Removal) (path : Path) : Removal :=
  match removal.workspace.tree.remove path removal.workspace.now with
  | .ok tree =>
    { removal with
      workspace := { removal.workspace with tree := tree }
      count := removal.count + 1 }
  | .error .notFound => removal
  | .error cause =>
    { removal with warnings := removal.warnings ++ [.artifactNotRemoved path cause] }

/-- Remove all generated files and forget them, unless they are to be kept. The answer is the number
of files that were removed. -/
def cleanup (studio : Studio σ) (options : EpisodeOptions) (run : Run σ) : Nat × Run σ :=
  if options.keep then (0, run)
  else
    let removal := run.artifacts.paths.foldl removeOne ⟨studio.workspace run.world, 0, []⟩
    (removal.count,
      { run with
        artifacts := .empty
        warnings := run.warnings ++ removal.warnings
        world := studio.setWorkspace removal.workspace run.world })

end Episode

end EpisodeCut
