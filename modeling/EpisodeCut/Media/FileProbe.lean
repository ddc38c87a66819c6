import EpisodeCut.Media.Info
import EpisodeCut.Workspace.Basic

/-!
# Probing files

Files are probed by an external tool. An answer is kept for as long as the file is not seen to be
newer than it was when it was probed (`FileProbe.inspect`).
-/

set_option autoImplicit false

namespace EpisodeCut

/-- A kept answer, with the time at which the file was last modified when it was probed. -/
structure ProbeRecord where
  modified : Option Nat
  info : MediaInfo
  deriving DecidableEq, Repr

/-- Kept answers by path, and the number of successful runs of the probing tool. -/
structure ProbeCache where
  records : List (Path × ProbeRecord)
  runs : Nat
  deriving DecidableEq, Repr, Inhabited

namespace ProbeCache

/-- No answers yet. -/
def empty : ProbeCache := ⟨[], 0⟩

/-- The answer that is kept for a path. -/
def find? (cache : ProbeCache) (path : Path) : Option ProbeRecord :=
  (cache.records.find? (·.1.same path)).map Prod.snd

/-- Keep an answer in place of an earlier one. -/
def insert (cache : ProbeCache) (path : Path) (record : ProbeRecord) : ProbeCache :=
  { cache with records := (path, record) :: cache.records.filter (!·.1.same path) }

/-- The cache after one more successful run of the tool. -/
def countRun (cache : ProbeCache) : ProbeCache :=
  { cache with runs := cache.runs + 1 }

end ProbeCache

/-- Whether a record may be out of date for a file that was last modified at `now`. -/
def ProbeRecord.isStale (record : ProbeRecord) (now : Option Nat) : Bool :=
  match record.modified, now with
  | some before, some now => before < now
  | _, _ => false

/-- A workspace, and what has been learnt about its files. -/
structure FileProbe where
  workspace : Workspace
  cache : ProbeCache

namespace FileProbe

/-- The arguments of the probing tool. -/
def arguments (path : Path) : List String :=
  ["-v", "error", "-print_format", "json", "-show_format", "-show_streams", path]

/-- Carry out an action on the workspace. -/
def inWorkspace {α : Type} (action : Action Workspace α) : Action FileProbe α :=
  action.within FileProbe.workspace fun workspace probe => { probe with workspace }

/-- Run the probing tool, and keep the answer for a file last modified at `modified`. -/
def ask (path : Path) (modified : Option Nat) : Action FileProbe MediaInfo := do
  let output ← inWorkspace (Workspace.capture probeTool "probe" path (arguments path))
  -- The run counts even if its output is refused.
  modify fun probe => { probe with cache := probe.cache.countRun }
  let info ← Action.ofExcept (MediaInfo.ofOutput output path)
  modify fun probe => { probe with cache := probe.cache.insert path ⟨modified, info⟩ }
  pure info

/-- Everything that is known about a file, from the kept answer where that is up to date. -/
def inspect (path : Path) : Action FileProbe MediaInfo := do
  let probe ← get
  let modified := probe.workspace.tree.modified? path
  match probe.cache.find? path with
  | some record => if record.isStale modified then ask path modified else pure record.info
  | none => ask path modified

end FileProbe

end EpisodeCut
