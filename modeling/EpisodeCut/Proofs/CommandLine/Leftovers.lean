import EpisodeCut.CommandLine.Execute
import EpisodeCut.Proofs.Artifacts.Names
import EpisodeCut.Proofs.Episode.Stages
import EpisodeCut.Proofs.Media.Containment

/-!
# What a run leaves behind

Wherever a run ends, every new file is a recorded one or the output (`CommandLine.Accounted`): files
are recorded before they are ordered, and an order is contained in its destination. In the end the
recorded files are removed, so if the tools are tidy, the output is the only file that a run leaves
behind, however it is interrupted (`CommandLine.leaves_output`). A rehearsal leaves all files as they
are, and it starts no tool but the one that probes (`CommandLine.Rehearsed`).

Nothing is removed, though, once a line that the run says has not been taken; an output whose name is
no text is written under the name that is shown; and a probe can remove files in a rehearsal too
(`CommandLine.leaves_others`).
-/

set_option autoImplicit false

namespace EpisodeCut

open EpisodeCut.Action

/-! ## Recorded files -/

namespace Artifacts

variable {names : ArtifactNames} {artifacts : Artifacts}

/-- All recorded files have generated names. -/
def Named (names : ArtifactNames) (artifacts : Artifacts) : Prop :=
  ∀ path ∈ artifacts.paths, ∃ kind number, path = names.path kind number

theorem subset_push (artifacts : Artifacts) (path : Path) :
    artifacts.paths ⊆ (artifacts.push path).paths := by
  rw [push]
  split
  · exact List.Subset.refl _
  · exact List.subset_append_left _ _

theorem Named.push (named : artifacts.Named names) (kind : MediaKind) (number : Nat) :
    (artifacts.push (names.path kind number)).Named names := by
  rw [Artifacts.push]
  split
  · exact named
  · intro path hpath
    rcases List.mem_append.1 hpath with hold | hnew
    · exact named path hold
    · exact ⟨kind, number, List.mem_singleton.1 hnew⟩

/-- Generated names that are the same path are the same text, so the path itself is recorded. -/
theorem Named.mem_push (named : artifacts.Named names) (undivided : '/' ∉ names.stem.toList)
    (kind : MediaKind) (number : Nat) :
    names.path kind number ∈ (artifacts.push (names.path kind number)).paths := by
  rw [Artifacts.push]
  split
  · next hrecorded =>
    obtain ⟨path, hpath, hsame⟩ := List.any_eq_true.1 hrecorded
    obtain ⟨otherKind, otherNumber, rfl⟩ := named path hpath
    have hcomponents := beq_iff_eq.1 hsame
    rw [ArtifactNames.components_path undivided, ArtifactNames.components_path undivided,
      List.append_cancel_left_eq, List.cons.injEq, Path.Component.name.injEq] at hcomponents
    have htext : names.path otherKind otherNumber = names.path kind number :=
      congrArg names.directory.join hcomponents.1
    rw [← htext]
    exact hpath
  · exact List.mem_append_right _ List.mem_cons_self

end Artifacts

/-! ## Cleaning up -/

namespace Episode

theorem tree_removeOne (removal : Removal) (path : Path) :
    (removeOne removal path).workspace.tree =
      removal.workspace.tree.without path removal.workspace.now := by
  rw [removeOne, FileTree.without]
  cases removal.workspace.tree.remove path removal.workspace.now with
  | ok tree => rfl
  | error cause => cases cause <;> rfl

/-- When all paths of a list have been removed, changes are confined to the other ones. -/
theorem confined_removeAll {before : FileTree} {more : List Path} (paths : List Path)
    (removal : Removal) (h : before.Confined (paths ++ more) removal.workspace.tree) :
    before.Confined more (paths.foldl removeOne removal).workspace.tree := by
  induction paths generalizing removal with
  | nil => exact h
  | cons path rest ih =>
    apply ih
    rw [tree_removeOne]
    exact h.discharge _

end Episode

namespace CommandLine

variable {start : Workspace} {output : Path} {settings : Settings}

/-! ## A run with tools -/

/-- Every new file is a recorded one or the output. -/
structure Accounted (start : Workspace) (output : Path) (run : Run Bench) : Prop where
  named : run.artifacts.Named (.ofOutput output)
  contained : start.Contained (run.artifacts.paths ++ [output]) run.world.workspace

/-- What contains changes in the world keeps the account. -/
theorem keeps_inWorld {α : Type} {action : Action Bench α}
    (keeps : ∀ paths, Keeps (fun bench => start.Contained paths bench.workspace) action) :
    Keeps (Accounted start output) (Run.inWorld action) := by
  intro run accounted
  rw [Run.inWorld, after_within]
  exact ⟨accounted.named, keeps _ run.world accounted.contained⟩

theorem maintains_ofTools (tidy : start.script.Tidy) (output : Path) :
    Studio.ofTools.Maintains (.ofOutput output) (Accounted start output) where
  books run later hworld hartifacts accounted := by
    obtain ⟨hnamed, hcontained⟩ := accounted
    rw [← hartifacts] at hnamed hcontained
    rw [← hworld] at hcontained
    exact ⟨hnamed, hcontained⟩
  duration path := keeps_inWorld fun paths => Bench.keeps_duration path fun _ h => h.probe tidy _
  videoSize path := keeps_inWorld fun paths => Bench.keeps_videoSize path fun _ h => h.probe tidy _
  perform order kind number hdestination run accounted := by
    obtain ⟨hnamed, hcontained⟩ := accounted
    have hrecorded := hnamed.mem_push (ArtifactNames.undivided_stem_ofOutput output) kind number
    rw [← hdestination] at hrecorded
    -- The destination is recorded, so what the order does is accounted for.
    rw [Run.inWorld, after_within]
    refine ⟨?_, ?_⟩
    · rw [hdestination]
      exact hnamed.push kind number
    · have hperform := FileMaterializer.keeps_perform tidy order
        (List.mem_append_left [output] hrecorded)
      apply Bench.keeps_asMaterializer hperform run.world
      exact hcontained.mono
        (List.append_subset.2 ⟨List.subset_append_of_subset_left [output] (Artifacts.subset_push _ _),
          List.subset_append_right _ _⟩)

theorem keeps_renderIn (tidy : start.script.Tidy) {paths : List Path} {plan : RenderPlan}
    (h : plan.command.output ∈ paths) (interrupted : Bool) :
    Keeps (start.Contained paths) (Episode.renderIn interrupted plan) := by
  -- The output stands at the end of the arguments, where a tidy tool may write.
  have hlast : plan.command.arguments.getLast? = some plan.command.output :=
    List.getLast?_concat
  have hplay (workspace : Workspace) (contained : start.Contained paths workspace) :
      start.Contained paths (workspace.play ⟨renderTool, plan.command.arguments⟩) := by
    apply contained.play tidy
    intro path hpath
    rw [hlast] at hpath
    cases hpath
    exact h
  refine (keeps_ofExcept _).bind fun _ => ?_
  refine (Workspace.keeps_makeParent _).bind fun _ => ?_
  refine (Workspace.keeps_runTool hplay).bind fun reply => ?_
  refine .bind (keeps_modify fun workspace contained => ?_) fun _ => ?_
  · exact ⟨contained.script, contained.confined⟩
  · split
    · exact keeps_throw _
    · exact keeps_pure _

theorem keeps_render (tidy : start.script.Tidy) (interrupted : Bool) {plan : RenderPlan}
    (h : plan.command.output = output) :
    Keeps (Accounted start output) (Episode.render .ofTools interrupted plan) := by
  intro run accounted
  rw [Episode.render, Run.inWorld, after_within]
  refine ⟨accounted.named, ?_⟩
  rw [after_within]
  apply keeps_renderIn tidy
  · rw [h]
    exact List.mem_append_right _ List.mem_cons_self
  · exact accounted.contained

theorem keeps_readConfig {I : Run Bench → Prop} (circumstances : Circumstances)
    (path : Option Text.Raw) : Keeps I (readConfig circumstances path) := by
  cases path with
  | none => exact keeps_pure none
  | some path =>
    refine keeps_get_bind fun run hrun => ?_
    exact Keeps.bind (keeps_ofExcept _) (fun _ => keeps_pure _) run hrun

section Produce

variable {studio : Studio Bench} {I : Run Bench → Prop} {circumstances : Circumstances}

theorem keeps_saying {next : Action (Run Bench) Outcome}
    (keepsLine : ∀ channel line, Keeps I (writeLine channel line)) (keepsNext : Keeps I next)
    (channel : Channel) (line : String) : Keeps I (saying circumstances channel line next) := by
  rw [saying]
  split
  · exact (keepsLine channel line).bind fun _ => keepsNext
  · exact keeps_pure _

theorem keeps_dumping {next : Action (Run Bench) Outcome} {output : Text.Raw}
    (keepsLine : ∀ channel line, Keeps I (writeLine channel line)) (keepsNext : Keeps I next)
    (plan : RenderPlan) : Keeps I (dumping settings output circumstances plan next) := by
  rw [dumping]
  split
  · split
    · exact keeps_saying keepsLine keepsNext _ _
    · exact keeps_throw _
  · exact keepsNext

theorem keeps_finish {plan : RenderPlan} {interrupted : Bool}
    (keepsLine : ∀ channel line, Keeps I (writeLine channel line))
    (keepsRender : settings.has .dryRun = false → Keeps I (Episode.render studio interrupted plan)) :
    Keeps I (finish settings studio circumstances interrupted plan) := by
  rw [finish]
  split
  · exact keeps_saying keepsLine (keeps_pure _) _ _
  · next hrendered =>
    refine (keepsRender (Bool.eq_false_of_not_eq_true hrendered)).bind fun _ => ?_
    exact keeps_saying keepsLine (keeps_pure _) _ _

/-- What planning and rendering keep is kept by the program until it cleans up. -/
theorem keeps_produce {output : Text.Raw} {interrupted : Stage → Bool}
    (maintains : studio.Maintains (.ofOutput output.shown) I)
    (keepsLine : ∀ channel line, Keeps I (writeLine channel line))
    (keepsRender : settings.has .dryRun = false → ∀ plan : RenderPlan,
      plan.command.output = output.shown →
        Keeps I (Episode.render studio (interrupted .rendering) plan)) :
    Keeps I (produce settings output studio circumstances interrupted) := by
  refine (keeps_readConfig circumstances _).bind fun config => ?_
  have hnames : studio.Maintains (.ofOutput (settings.episodeOptions output.shown).output) I :=
    maintains
  refine (Episode.keeps_plan hnames _ config).bind_of_ok fun run plan later hmade hlater => ?_
  have hfinish : Keeps I (finish settings studio circumstances (interrupted .rendering) plan) :=
    keeps_finish keepsLine fun hrendered =>
      keepsRender hrendered plan (Episode.output_of_plan hmade)
  exact keeps_dumping keepsLine hfinish plan later hlater

end Produce

theorem after_eq_outcomeOf (action : Action (Run Bench) Outcome) (run : Run Bench) :
    (outcomeOf action run).2 = action.after run := by
  rw [outcomeOf, after]
  cases action run <;> rfl

/-! ## Lines that are taken -/

/-- The channels take what a run with tools says: anything on the error channel, and the plan where it
is asked for. -/
structure Circumstances.Heard (circumstances : Circumstances) (settings : Settings) : Prop where
  errors : ∀ line, circumstances.takes .error line = true
  plan : settings.has .dumpPlan = true → ∀ line, circumstances.takes .output line = true

/-- An action does not end with a line that is not taken. -/
def Unsilenced (action : Action (Run Bench) Outcome) : Prop :=
  ∀ run outcome later, action run = .ok outcome later → ∀ channel, outcome ≠ .silenced channel

section Heard

variable {circumstances : Circumstances} {channel : Channel} {line : String}

theorem unsilenced_pure {outcome : Outcome} (h : ∀ channel, outcome ≠ .silenced channel) :
    Unsilenced (pure outcome) := by
  intro run found later hpure
  cases hpure
  exact h

theorem Unsilenced.bind {α : Type} {first : Action (Run Bench) α}
    {next : α → Action (Run Bench) Outcome} (h : ∀ a, Unsilenced (next a)) :
    Unsilenced (first >>= next) := by
  intro run outcome later hbind
  obtain ⟨a, middle, -, hnext⟩ := Action.bind_eq_ok hbind
  exact h a middle outcome later hnext

theorem Unsilenced.saying {next : Action (Run Bench) Outcome} (hnext : Unsilenced next)
    (taken : circumstances.takes channel line = true) :
    Unsilenced (saying circumstances channel line next) := by
  rw [CommandLine.saying, if_pos taken]
  exact .bind fun _ => hnext

/-- A run with tools whose lines are taken goes on to its end. -/
theorem Circumstances.Heard.unsilenced_produce (heard : circumstances.Heard settings)
    (rendered : settings.has .dryRun = false) (output : Text.Raw) (studio : Studio Bench)
    (interrupted : Stage → Bool) :
    Unsilenced (produce settings output studio circumstances interrupted) := by
  -- Whatever has failed before, only what is done with a plan says anything.
  refine .bind fun config => .bind fun plan => ?_
  have hfinish : Unsilenced (finish settings studio circumstances (interrupted .rendering) plan) := by
    have hwrote : Unsilenced (pure (.wrote plan.command.output)) := unsilenced_pure nofun
    rw [finish, if_neg (by simp [rendered])]
    exact .bind fun _ => hwrote.saying (heard.errors _)
  rw [dumping]
  split
  · next hdump =>
    split
    · exact hfinish.saying (heard.plan hdump _)
    · intro run outcome later hthrow
      cases hthrow
  · exact hfinish

theorem unsilenced_outcomeOf {action : Action (Run Bench) Outcome} (h : Unsilenced action)
    (run : Run Bench) (channel : Channel) : (outcomeOf action run).1 ≠ .silenced channel := by
  rw [outcomeOf]
  cases haction : action run with
  | ok outcome later => exact h run outcome later haction channel
  | error failure later => exact nofun

end Heard

/-! ## A rehearsal -/

/-- Since `start` no file has changed, and no tool has been started but the one that probes. -/
structure Rehearsed (start later : Workspace) : Prop where
  script : later.script = start.script
  tree : later.tree = start.tree
  started : ∃ probes, later.invocations = start.invocations ++ probes ∧
    ∀ invocation ∈ probes, invocation.tool = probeTool

theorem Rehearsed.probe {later : Workspace} (tidy : start.script.Tidy)
    (sparing : start.script.Sparing) (rehearsed : Rehearsed start later) (arguments : List String) :
    Rehearsed start (later.play ⟨probeTool, arguments⟩) := by
  obtain ⟨hscript, htree, probes, hprobes, htools⟩ := rehearsed
  rw [← hscript] at tidy sparing
  refine ⟨?_, ?_, probes ++ [⟨probeTool, arguments⟩], ?_, ?_⟩
  · rw [Workspace.script_play, hscript]
  · rw [Workspace.tree_play_probe tidy sparing, htree]
  · rw [Workspace.invocations_play, hprobes, List.append_assoc]
  · intro invocation hinvocation
    rcases List.mem_append.1 hinvocation with hold | hnew
    · exact htools invocation hold
    · rw [List.mem_singleton.1 hnew]

section Rehearsal

variable {I : Workspace → Prop} {circumstances : Circumstances} {output : Text.Raw}

theorem maintains_rehearsal
    (probing : ∀ workspace arguments, I workspace → I (workspace.play ⟨probeTool, arguments⟩))
    (names : ArtifactNames) : Studio.rehearsal.Maintains names fun run => I run.world.workspace where
  books run later hworld _ h := by
    rw [hworld]
    exact h
  duration path := keeps_within (Bench.keeps_duration path fun workspace => probing workspace _)
    (fun _ h => h) fun _ _ _ h => h
  videoSize path := keeps_within (Bench.keeps_videoSize path fun workspace => probing workspace _)
    (fun _ h => h) fun _ _ _ h => h
  perform _ _ _ _ _ h := h

theorem run_conclude_of_dry (dry : settings.has .dryRun = true) (outcome : Outcome)
    (run : Run Bench) : (conclude settings output circumstances outcome run).2 = run := by
  cases outcome <;> simp [conclude, dry]

/-- What probing and saying lines keep is kept by a rehearsal. -/
theorem keeps_rehearsal (dry : settings.has .dryRun = true)
    (probing : ∀ workspace arguments, I workspace → I (workspace.play ⟨probeTool, arguments⟩))
    (saying : ∀ (channel : Channel) line workspace, I workspace → I (channel.say line workspace))
    (hstart : I start) : I (execute settings output circumstances start).2.world.workspace := by
  have hmaintains : Studio.rehearsal.Maintains (.ofOutput output.shown)
      fun run => I run.world.workspace := maintains_rehearsal probing _
  have hproduced : I ((produce settings output .rehearsal circumstances fun _ => false).after
      (Run.start (Bench.start start))).world.workspace :=
    keeps_produce hmaintains (fun channel line _ h => saying channel line _ h)
      (fun hrendered => absurd (dry.symm.trans hrendered) (by decide)) _ hstart
  rw [← after_eq_outcomeOf] at hproduced
  rw [execute, if_pos dry, run_conclude_of_dry dry]
  exact hproduced

end Rehearsal

/-! ## The program -/

section Program

variable {circumstances : Circumstances} {output : Text.Raw}

theorem contained_say {paths : List Path} {workspace : Workspace}
    (contained : start.Contained paths workspace) (channel : Channel) (line : String) :
    start.Contained paths (channel.say line workspace) := by
  cases channel <;> exact ⟨contained.script, contained.confined⟩

theorem rehearsed_execute (tidy : start.script.Tidy) (sparing : start.script.Sparing)
    (dry : settings.has .dryRun = true) :
    Rehearsed start (execute settings output circumstances start).2.world.workspace := by
  refine keeps_rehearsal dry (fun _ arguments h => h.probe tidy sparing arguments) ?_
    ⟨rfl, rfl, [], (List.append_nil _).symm, nofun⟩
  intro channel line workspace rehearsed
  cases channel <;> exact ⟨rehearsed.script, rehearsed.tree, rehearsed.started⟩

theorem conclude_of_unsilenced {outcome : Outcome} (h : ∀ channel, outcome ≠ .silenced channel)
    (rendered : settings.has .dryRun = false) (discards : settings.has .keep = false)
    (run : Run Bench) :
    (conclude settings output circumstances outcome run).2.world.workspace.tree =
      (run.artifacts.paths.foldl Episode.removeOne
        ⟨run.world.workspace, 0, []⟩).workspace.tree := by
  have hkeep : (settings.episodeOptions output.shown).keep = false := discards
  cases outcome with
  | silenced channel => exact absurd rfl (h channel)
  | _ =>
    simp only [conclude, rendered, Episode.cleanup, hkeep, Bool.false_eq_true, if_false]
    rfl

/-- Every new file is the output once the recorded files have been removed. -/
theorem confined_execute_of_tools (tidy : start.script.Tidy) (heard : circumstances.Heard settings)
    (rendered : settings.has .dryRun = false) (discards : settings.has .keep = false)
    (straight : output.strayDirectory = false) :
    start.tree.Confined [output.shown]
      (execute settings output circumstances start).2.world.workspace.tree := by
  have hstart : Accounted start output.shown (Run.start (Bench.start start)) :=
    ⟨nofun, .refl start [output.shown]⟩
  have hproduced : Accounted start output.shown
      ((produce settings output .ofTools circumstances circumstances.interrupted).after
        (Run.start (Bench.start start))) :=
    keeps_produce (maintains_ofTools tidy output.shown)
      (fun channel line _ accounted =>
        ⟨accounted.named, contained_say accounted.contained channel line⟩)
      (fun _ _ => keeps_render tidy _) _ hstart
  rw [← after_eq_outcomeOf] at hproduced
  -- Files are only removed after a run that has said all it wants to say.
  have hunsilenced := unsilenced_outcomeOf
    (heard.unsilenced_produce rendered output .ofTools circumstances.interrupted)
    (Run.start (Bench.start start))
  rw [execute, if_neg (by simp [rendered]), if_neg (by simp [straight]),
    conclude_of_unsilenced hunsilenced rendered discards]
  exact Episode.confined_removeAll _ _ hproduced.contained.confined

/-- A run that keeps nothing is confined to the output as the tools are told of it. -/
theorem confined_execute (tidy : start.script.Tidy) (heard : circumstances.Heard settings)
    (discards : settings.has .keep = false) (straight : output.strayDirectory = false) :
    start.tree.Confined [output.shown]
      (execute settings output circumstances start).2.world.workspace.tree := by
  cases hdry : settings.has .dryRun with
  | true =>
    have hrehearsed : start.Contained []
        (execute settings output circumstances start).2.world.workspace :=
      keeps_rehearsal hdry (fun _ arguments h => h.probe tidy arguments)
        (fun channel line _ h => contained_say h channel line) (.refl start [])
    exact hrehearsed.confined.mono (List.nil_subset _)
  | false => exact confined_execute_of_tools tidy heard hdry discards straight

end Program

/-- What is reported of a film: a minute, and a video stream of ten frames. -/
def filmReport : List UInt8 :=
  ("\x7b\x22format\x22: \x7b\x22duration\x22: \x2260\x22\x7d, \x22streams\x22: " ++
    "[\x7b\x22codec_type\x22: \x22video\x22, \x22nb_frames\x22: \x2210\x22\x7d]\x7d").toUTF8.toList

/-- Tools for films, of which the renderer leaves a file behind even in the run in which it fails, and
the one that probes removes some files. -/
def filmTools (failing : Option Nat) (removed : List Path) : Script := fun number invocation _ =>
  if invocation.tool = probeTool then ⟨0, filmReport, "", [], removed⟩
  else
    ⟨if failing = some number then 1 else 0, [], "no space left",
      (invocation.arguments.getLast?.map fun path => ⟨path, 0, []⟩).toList, []⟩

theorem tidy_filmTools (failing : Option Nat) (removed : List Path) :
    (filmTools failing removed).Tidy := by
  constructor
  · intro number invocation tree file hfile
    rw [filmTools] at hfile
    split at hfile
    · cases hfile
    · cases hlast : invocation.arguments.getLast? with
      | none =>
        rw [hlast] at hfile
        cases hfile
      | some path =>
        rw [hlast] at hfile
        rw [List.mem_singleton.1 hfile]
  · intro number arguments tree
    rw [filmTools, if_pos rfl]

theorem sparing_filmTools (failing : Option Nat) : (filmTools failing []).Sparing := by
  intro number arguments tree
  rw [filmTools, if_pos rfl]

/-- A film, and a configuration by which its last frame is shown behind a part of it. -/
def filmStudio (failing : Option Nat) (removed : List Path) : Workspace where
  tree := ((FileTree.bare ["show"]).put ["show", "talk.mov"] (.file 1 [])).put ["show", "talk.cfg"]
    (.file 1 "[v:talk.mov] 0:0 0:5 [f:^:last] 0:0 0:3".toUTF8.toList)
  now := 2
  tools := [(renderTool, .ready), (probeTool, .ready)]
  script := filmTools failing removed
  invocations := []
  console := []
  complaints := ""

/-- A console of which the output takes nothing. -/
def closedOutput : Circumstances :=
  ⟨fun channel _ => decide (channel = .error), none, fun _ => .error .notFound⟩

/-- A command line that names the configuration of the film. -/
def talkArguments (options : List String) (output : Text.Raw) : List Text.Raw :=
  (options ++ ["-c", "talk.cfg"]).map Text.Raw.ofString ++ [output]

def talkSettings (flags : List Flag) (output : Text.Raw) : Settings :=
  ⟨some output, [(.config, .path (Text.Raw.ofString "talk.cfg"))], flags⟩

/-- The clip of the segment and the scratch file that the renderer has left behind are gone. -/
example :
    let run := (run (talkArguments [] (.ofString "ep.mov")) closedOutput (filmStudio (some 3) [])).2
    run.world.workspace.invocations.map Invocation.tool =
        ["ffprobe", "ffmpeg", "ffprobe", "ffmpeg"] ∧
      run.world.workspace.tree.nodes.map Prod.fst =
        [["show", "talk.cfg"], ["show", "talk.mov"], ["show"]] := by
  decide +kernel

end CommandLine

end EpisodeCut
