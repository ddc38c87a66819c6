import EpisodeCut.Action
import EpisodeCut.Artifacts
import EpisodeCut.Draft

/-!
# Runs

The state of a run that plans an episode: the draft, the generated files, the warnings so far, and
the world in which files are probed and produced. The world is any type: planning reaches it only
through the operations that it is given.
-/

set_option autoImplicit false

namespace EpisodeCut

/-- The state of a run in the world `σ`. -/
structure Run (σ : Type) where
  draft : Draft
  artifacts : Artifacts
  /-- The warnings in the order in which they arose. -/
  warnings : List Warning
  world : σ

namespace Run

variable {σ α : Type}

/-- The run in which nothing has happened yet. -/
def start (world : σ) : Run σ := ⟨.empty, .empty, [], world⟩

/-- Carry out an action on the world. -/
def inWorld (action : Action σ α) : Action (Run σ) α :=
  action.within Run.world fun world run => { run with world }

/-- Add warnings. -/
def warn (warnings : List Warning) : Action (Run σ) Unit :=
  modify fun run => { run with warnings := run.warnings ++ warnings }

/-- Record a generated file. -/
def record (path : Path) : Action (Run σ) Unit :=
  modify fun run => { run with artifacts := run.artifacts.push path }

/-- Make a segment. -/
def create (punchIn punchOut : Timecode) (input : String) (body : SegmentBody) :
    Action (Run σ) Segment := fun run =>
  let made := run.draft.create punchIn punchOut input body
  .ok made.segment { run with draft := made.draft, warnings := run.warnings ++ made.warnings }

end Run

end EpisodeCut
