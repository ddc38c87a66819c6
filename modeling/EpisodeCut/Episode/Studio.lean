import EpisodeCut.Media.FileMaterializer
import EpisodeCut.Probe
import EpisodeCut.Run

/-!
# Studios

A studio is everything outside of planning that an episode needs: a probe, a materializer, and the
workspace in which the episode is rendered. The real one works on files with external tools
(`Studio.ofTools`); for a rehearsal the same probe is used, but nothing is produced
(`Studio.rehearsal`).
-/

set_option autoImplicit false

namespace EpisodeCut

/-- The means by which an episode is made in the world `σ`. -/
structure Studio (σ : Type) where
  probe : Probe σ
  materializer : Materializer σ
  workspace : σ → Workspace
  setWorkspace : Workspace → σ → σ

/-- A workspace, with what the probe and the materializer have each learnt about its files. -/
structure Bench where
  workspace : Workspace
  probed : ProbeCache
  counted : ProbeCache

namespace Bench

variable {α : Type}

/-- The bench at which nothing has been learnt yet. -/
def start (workspace : Workspace) : Bench := ⟨workspace, .empty, .empty⟩

/-- Carry out an action of the probe. -/
def asProbe (action : Action FileProbe α) : Action Bench α :=
  action.within (fun bench => ⟨bench.workspace, bench.probed⟩) fun probe bench =>
    { bench with workspace := probe.workspace, probed := probe.cache }

/-- Carry out an action of the materializer. -/
def asMaterializer (action : Action FileProbe α) : Action Bench α :=
  action.within (fun bench => ⟨bench.workspace, bench.counted⟩) fun probe bench =>
    { bench with workspace := probe.workspace, counted := probe.cache }

/-- The probe of the files in the workspace. -/
def probe : Probe Bench where
  present path bench := bench.workspace.tree.contains path
  duration path := asProbe do
    let info ← FileProbe.inspect path
    pure info.duration
  videoSize path := asProbe do
    let info ← FileProbe.inspect path
    pure info.videoSize

/-- The materializer that works with external tools. -/
def materializer : Materializer Bench :=
  ⟨fun order => asMaterializer (FileMaterializer.perform order)⟩

end Bench

namespace Studio

/-- The studio that works on files with external tools. -/
def ofTools : Studio Bench where
  probe := Bench.probe
  materializer := Bench.materializer
  workspace := Bench.workspace
  setWorkspace workspace bench := { bench with workspace }

/-- The studio that probes files but produces none. -/
def rehearsal : Studio Bench :=
  { ofTools with materializer := .idle }

end Studio

end EpisodeCut
