import EpisodeCut.Episode.Studio
import EpisodeCut.Proofs.Run.Keeps
import EpisodeCut.Proofs.Workspace.Confined

/-!
# Containment

What has changed in a workspace is contained in some paths if no file has appeared elsewhere
(`Workspace.Contained`). With tidy tools, probing a file is contained in no path at all, and carrying
out an order is contained in its destination (`FileMaterializer.keeps_perform`): the scratch file in
which the last frame is looked for is gone whether the search has failed or not
(`FileMaterializer.keeps_lastFrame`).
-/

set_option autoImplicit false

namespace EpisodeCut

open EpisodeCut.Action

/-! ## Workspaces -/

namespace Workspace

variable {I : Workspace → Prop} {start workspace : Workspace} {paths more : List Path} {path : Path}
  {tool operation : String} {subject : Path} {arguments : List String}

theorem keeps_runTool
    (h : ∀ workspace, I workspace → I (workspace.play ⟨tool, arguments⟩)) :
    Keeps I (runTool tool operation subject arguments) := by
  intro workspace hworkspace
  rcases runTool_cases tool operation subject arguments workspace with
    ⟨-, hrun⟩ | ⟨-, ⟨cause, -, hrun⟩ | ⟨-, hrun⟩⟩
  · rw [after_of_error hrun]
    exact hworkspace
  · rw [after_of_error hrun]
    exact hworkspace
  · rw [after_of_ok hrun]
    exact h workspace hworkspace

theorem keeps_capture
    (h : ∀ workspace, I workspace → I (workspace.play ⟨tool, arguments⟩)) :
    Keeps I (capture tool operation subject arguments) := by
  refine (keeps_runTool h).bind fun reply => ?_
  split
  · exact keeps_pure _
  · exact keeps_throw _

/-- Since `start` the script is the same, and what has changed is confined to some paths. -/
structure Contained (start : Workspace) (paths : List Path) (later : Workspace) : Prop where
  script : later.script = start.script
  confined : start.tree.Confined paths later.tree

theorem Contained.refl (start : Workspace) (paths : List Path) : start.Contained paths start :=
  ⟨rfl, .refl paths start.tree⟩

theorem Contained.mono (contained : start.Contained paths workspace) (h : paths ⊆ more) :
    start.Contained more workspace :=
  ⟨contained.script, contained.confined.mono h⟩

theorem Contained.play (tidy : start.script.Tidy) {invocation : Invocation}
    (h : ∀ path, invocation.arguments.getLast? = some path → path ∈ paths)
    (contained : start.Contained paths workspace) :
    start.Contained paths (workspace.play invocation) := by
  obtain ⟨hscript, hconfined⟩ := contained
  refine ⟨(script_play workspace invocation).trans hscript, ?_⟩
  rw [← hscript] at tidy
  exact hconfined.trans (confined_play tidy h)

theorem Contained.probe (tidy : start.script.Tidy) (arguments : List String)
    (contained : start.Contained paths workspace) :
    start.Contained paths (workspace.play ⟨probeTool, arguments⟩) := by
  obtain ⟨hscript, hconfined⟩ := contained
  refine ⟨(script_play workspace _).trans hscript, ?_⟩
  rw [← hscript] at tidy
  exact hconfined.trans (confined_play_probe tidy arguments)

/-- A run of a tool is contained in the paths if its last argument is one of them. -/
theorem keeps_capture_last (tidy : start.script.Tidy) (hlast : arguments.getLast? = some path)
    (hpath : path ∈ paths) :
    Keeps (start.Contained paths) (capture tool operation subject arguments) := by
  apply keeps_capture
  intro workspace contained
  apply contained.play tidy
  intro last h
  rw [hlast] at h
  cases h
  exact hpath

theorem keeps_makeParent (path : Path) : Keeps (start.Contained paths) (makeParent path) := by
  rw [makeParent]
  split
  · exact keeps_pure _
  · exact keeps_pure _
  · next parent _ _ =>
    refine keeps_get_bind fun workspace contained => ?_
    -- Some of the directories are there even where not all can be made.
    have hmade := FileTree.confined_makeDirectories workspace.tree parent workspace.now
    generalize workspace.tree.makeDirectories parent workspace.now = made at hmade
    obtain ⟨tree, outcome⟩ := made
    have hcontained : start.Contained paths { workspace with tree := tree } :=
      ⟨contained.script, contained.confined.trans (hmade.mono (List.nil_subset paths))⟩
    rw [after_set_bind]
    cases outcome with
    | ok done => exact hcontained
    | error cause => exact hcontained

end Workspace

/-! ## Probing -/

namespace FileProbe

variable {I : Workspace → Prop}

theorem keeps_inWorkspace {α : Type} {action : Action Workspace α} (keeps : Keeps I action) :
    Keeps (fun probe => I probe.workspace) (inWorkspace action) :=
  keeps_within keeps (fun _ h => h) fun _ _ _ h => h

theorem keeps_modify_cache {change : FileProbe → FileProbe}
    (h : ∀ probe, (change probe).workspace = probe.workspace) :
    Keeps (fun probe => I probe.workspace) (modify change : Action FileProbe Unit) := by
  refine keeps_modify fun probe hprobe => ?_
  rw [h]
  exact hprobe

/-- What a run of the probing tool keeps is kept by looking at a file, with or without a run. -/
theorem keeps_inspect (path : Path)
    (h : ∀ workspace, I workspace → I (workspace.play ⟨probeTool, arguments path⟩)) :
    Keeps (fun probe => I probe.workspace) (inspect path) := by
  have hask (modified : Option Nat) :
      Keeps (fun probe => I probe.workspace) (ask path modified) := by
    refine (keeps_inWorkspace (Workspace.keeps_capture h)).bind fun output => ?_
    refine .bind (keeps_modify_cache fun _ => rfl) fun _ => ?_
    refine (keeps_ofExcept _).bind fun info => ?_
    exact .bind (keeps_modify_cache fun _ => rfl) fun _ => keeps_pure info
  refine keeps_get_bind fun probe hprobe => ?_
  simp only
  split
  · split
    · exact hask _ probe hprobe
    · exact hprobe
  · exact hask _ probe hprobe

end FileProbe

namespace Bench

variable {I : Workspace → Prop}

theorem keeps_asProbe {α : Type} {action : Action FileProbe α}
    (keeps : Keeps (fun probe => I probe.workspace) action) :
    Keeps (fun bench => I bench.workspace) (asProbe action) :=
  keeps_within keeps (fun _ h => h) fun _ _ _ h => h

theorem keeps_asMaterializer {α : Type} {action : Action FileProbe α}
    (keeps : Keeps (fun probe => I probe.workspace) action) :
    Keeps (fun bench => I bench.workspace) (asMaterializer action) :=
  keeps_within keeps (fun _ h => h) fun _ _ _ h => h

theorem keeps_duration (path : Path)
    (h : ∀ workspace, I workspace → I (workspace.play ⟨probeTool, FileProbe.arguments path⟩)) :
    Keeps (fun bench => I bench.workspace) (probe.duration path) :=
  keeps_asProbe ((FileProbe.keeps_inspect path h).bind fun _ => keeps_pure _)

theorem keeps_videoSize (path : Path)
    (h : ∀ workspace, I workspace → I (workspace.play ⟨probeTool, FileProbe.arguments path⟩)) :
    Keeps (fun bench => I bench.workspace) (probe.videoSize path) :=
  keeps_asProbe ((FileProbe.keeps_inspect path h).bind fun _ => keeps_pure _)

end Bench

/-! ## Carrying out orders -/

namespace FileMaterializer

variable {start : Workspace} {paths : List Path} {destination : Path}

theorem keeps_renderSegment (tidy : start.script.Tidy) (segment : Segment)
    (h : destination ∈ paths) :
    Keeps (start.Contained paths) (renderSegment segment destination) := by
  have hcopy (selector : String) : Keeps (start.Contained paths) (do
      Workspace.makeParent destination
      discard <| Workspace.capture renderTool "render segment" segment.input
        (sliceArguments segment selector destination)) :=
    (Workspace.keeps_makeParent destination).bind fun _ =>
      (Workspace.keeps_capture_last tidy rfl h).discard
  rw [renderSegment]
  split
  · exact hcopy _
  · exact hcopy _
  · exact keeps_throw _

theorem keeps_takeFrame (tidy : start.script.Tidy) (media source : Path) (index : Nat)
    (h : destination ∈ paths) :
    Keeps (fun probe => start.Contained paths probe.workspace)
      (takeFrame media source index destination) :=
  (FileProbe.keeps_inWorkspace (Workspace.keeps_capture_last tidy rfl h)).discard

theorem keeps_copyTail (tidy : start.script.Tidy) (media : Path) {scratch : Path}
    (h : scratch ∈ paths) :
    Keeps (fun probe => start.Contained paths probe.workspace) (copyTail media scratch) := by
  refine (FileProbe.keeps_inspect media fun _ h => h.probe tidy _).bind fun info => ?_
  exact (FileProbe.keeps_inWorkspace (Workspace.keeps_capture_last tidy rfl h)).discard

theorem keeps_countFrames (tidy : start.script.Tidy) (scratch : Path) :
    Keeps (fun probe => start.Contained paths probe.workspace) (countFrames scratch) := by
  refine (FileProbe.keeps_inspect scratch fun _ h => h.probe tidy _).bind fun info => ?_
  split
  · exact keeps_pure _
  · exact keeps_throw _

/-- Nothing is left of the search for the last frame but the image. -/
theorem keeps_lastFrame (tidy : start.script.Tidy) (media : Path) (h : destination ∈ paths) :
    Keeps (fun probe => start.Contained paths probe.workspace) (lastFrame media destination) := by
  intro probe contained
  have hscratch : scratchPath media ∈ scratchPath media :: paths := List.mem_cons_self
  have hdestination : destination ∈ scratchPath media :: paths := List.mem_cons_of_mem _ h
  have hsearch : Keeps (fun probe => start.Contained (scratchPath media :: paths) probe.workspace)
      (do
        copyTail media (scratchPath media)
        let frames ← countFrames (scratchPath media)
        takeFrame media (scratchPath media) (frames - 1) destination) :=
    (keeps_copyTail tidy media hscratch).bind fun _ =>
      (keeps_countFrames tidy (scratchPath media)).bind fun frames =>
        keeps_takeFrame tidy media (scratchPath media) (frames - 1) hdestination
  have hfound := hsearch probe (contained.mono (List.subset_cons_self _ _))
  -- While the search goes on the scratch file may exist, and then it is removed.
  rw [lastFrame, after_andFinally, discardScratch]
  refine ⟨?_, ?_⟩
  · obtain ⟨tree, hremove⟩ := Workspace.exists_remove_eq _ _
    rw [hremove]
    exact hfound.script
  · rw [Workspace.tree_remove]
    exact hfound.confined.discharge _

theorem keeps_extractFrame (tidy : start.script.Tidy) (media : Path) (frame : FrameNumber)
    (h : destination ∈ paths) :
    Keeps (fun probe => start.Contained paths probe.workspace)
      (extractFrame media frame destination) := by
  refine (FileProbe.keeps_inWorkspace (Workspace.keeps_makeParent destination)).bind fun _ => ?_
  cases frame with
  | index n => exact keeps_takeFrame tidy media media n.toNat h
  | last => exact keeps_lastFrame tidy media h

theorem keeps_rasterize (tidy : start.script.Tidy) (document : Path) (page : FrameNumber)
    (size : FrameSize) (h : destination ∈ paths) :
    Keeps (start.Contained paths) (rasterize document page size destination) := by
  refine keeps_get_bind fun workspace contained => ?_
  split
  · have hwork : Keeps (start.Contained paths) (do
        Workspace.makeParent destination
        let workspace ← get
        discard <| Workspace.capture (imageTool workspace) "rasterize" document
          (pageArguments document page size destination)) := by
      refine (Workspace.keeps_makeParent destination).bind fun _ => ?_
      refine keeps_get_bind fun later hlater => ?_
      exact (Workspace.keeps_capture_last tidy rfl h).discard later hlater
    exact hwork workspace contained
  · exact contained

/-- Carrying out an order is contained in its destination. -/
theorem keeps_perform (tidy : start.script.Tidy) (order : FrameOrder)
    (h : order.destination ∈ paths) :
    Keeps (fun probe => start.Contained paths probe.workspace) (perform order) := by
  cases order with
  | render segment destination =>
    exact FileProbe.keeps_inWorkspace (keeps_renderSegment tidy segment h)
  | extract media frame destination => exact keeps_extractFrame tidy media frame h
  | rasterize document page size destination =>
    exact FileProbe.keeps_inWorkspace (keeps_rasterize tidy document page size h)

end FileMaterializer

end EpisodeCut
