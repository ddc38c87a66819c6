import EpisodeCut.Proofs.Registry.Matches
import EpisodeCut.Proofs.Timeline.Renaming

/-!
# Timelines under other names

Resolution asks the probe about files and registers them, and takes them for documents by their
extensions. Beyond that it does not look at what files are called: with the files under new names,
and a probe that knows them under these, every step of it takes the same turn, and the segments that
it makes are the same ones, but with the new names (`Timeline.lockstep_resolve`).
-/

set_option autoImplicit false

namespace EpisodeCut

open EpisodeCut.Action Relator

/-! ## Segments that match -/

/-- The bodies play the same, but may say other names for it. -/
inductive SegmentBody.Matches : SegmentBody → SegmentBody → Prop
  | audio (stream : UInt32) : Matches (.audio stream) (.audio stream)
  | video (stream : UInt32) : Matches (.video stream) (.video stream)
  | still (frame : FrameNumber) :
      Matches (.frame frame (.pending .previousSegment)) (.frame frame (.pending .previousSegment))
  | page (frame page : FrameNumber) (path other : String) :
      Matches (.frame frame (.pending (.document path page)))
        (.frame frame (.pending (.document other page)))
  | shown (frame : FrameNumber) (image other : String) :
      Matches (.frame frame (.resolved image)) (.frame frame (.resolved other))

/-- The segments play the same, from inputs whose names are related. -/
structure Segment.Matches (K : String → String → Prop) (segment other : Segment) : Prop where
  number : other.number = segment.number
  punchIn : other.punchIn = segment.punchIn
  punchOut : other.punchOut = segment.punchOut
  input : K segment.input other.input
  body : segment.body.Matches other.body

/-- The drafts number segments alike, and their registries match. -/
structure Draft.Matches (K : String → String → Prop) (draft other : Draft) : Prop where
  registry : draft.registry.Matches K other.registry
  next : other.next = draft.next

variable {K : String → String → Prop}

/-- Making two segments that match keeps the drafts matching. -/
theorem Draft.Matches.create (unique : BiUnique K) {draft other : Draft}
    (matched : draft.Matches K other) (punchIn punchOut : Timecode) {input otherInput : String}
    (related : K input otherInput) {body otherBody : SegmentBody}
    (bodies : body.Matches otherBody) :
    Segment.Matches K (draft.create punchIn punchOut input body).segment
        (other.create punchIn punchOut otherInput otherBody).segment ∧
      Draft.Matches K (draft.create punchIn punchOut input body).draft
        (other.create punchIn punchOut otherInput otherBody).draft := by
  have hregister := matched.registry.register unique related
  have hnext : other.next + 1 = draft.next + 1 := by rw [matched.next]
  refine ⟨?_, ?_⟩
  · rw [segment_create, segment_create]
    exact ⟨matched.next, rfl, rfl, related, bodies⟩
  · -- The options of an image that exists say for how long it is shown, which is the same.
    cases bodies with
    | audio stream => exact ⟨hregister, hnext⟩
    | video stream => exact ⟨hregister, hnext⟩
    | still frame => exact ⟨hregister, hnext⟩
    | page frame page path otherPath => exact ⟨hregister, hnext⟩
    | shown frame image otherImage =>
      exact ⟨matched.registry.registerWithOptions unique related _, hnext⟩

theorem Run.lockstep_create {σ τ : Type} {World : σ → τ → Prop} (unique : BiUnique K)
    (punchIn punchOut : Timecode) {input otherInput : String} (related : K input otherInput)
    {body otherBody : SegmentBody} (bodies : body.Matches otherBody) :
    Lockstep (Related (Draft.Matches K) World) (Segment.Matches K)
      (create punchIn punchOut input body) (create punchIn punchOut otherInput otherBody) := by
  rintro run other ⟨drafts, worlds⟩
  obtain ⟨hsegments, hdrafts⟩ := drafts.create unique punchIn punchOut related bodies
  exact .ok ⟨hsegments, hdrafts, worlds⟩

theorem InputSpec.mem_files_of_source {spec : InputSpec} {file : String}
    (h : spec.source = some (.file file)) : file ∈ spec.files := by
  rw [files, h]
  exact List.mem_cons_self

theorem InputSpec.mem_files_of_times {spec : InputSpec} {file : String}
    (h : .durationOf file ∈ spec.times) : file ∈ spec.files := by
  apply List.mem_append_right
  exact List.mem_filterMap.2 ⟨_, h, rfl⟩

namespace Timeline

/-! ## What is fed to a segment -/

/-- The feed with its file under its new name. -/
def Feed.rename (rename : String → String) (feed : Feed) : Feed :=
  { feed with source := feed.source.rename rename }

section Feeds

variable {files : List String} {rename : String → String} {defaults : Defaults} {spec : InputSpec}

/-- The source is one of `files`, if it is a file at all, and has got its new name. -/
def SourceTurns (files : List String) (rename : String → String) (source other : SourceRef) :
    Prop :=
  other = source.rename rename ∧ ∀ file ∈ source.files, file ∈ files

theorem sourceTurns_file {file : String} (h : file ∈ files) :
    SourceTurns files rename (.file file) (.file (rename file)) := by
  refine ⟨rfl, ?_⟩
  intro other hother
  rw [List.mem_singleton.1 hother]
  exact h

theorem concur_sourceOf (number : Nat) (defaulted : ∀ file ∈ defaults.files, file ∈ files)
    (named : ∀ file ∈ spec.files, file ∈ files) :
    Concur (SourceTurns files rename) (sourceOf defaults number spec)
      (sourceOf (defaults.rename rename) number (spec.rename rename)) := by
  have hsource : (spec.rename rename).source = spec.source.map (SourceRef.rename rename) := rfl
  have hfile : ((defaults.rename rename).get (spec.rename rename).kind).file =
      (defaults.get spec.kind).file.map rename := by
    rw [Defaults.get_rename]
    rfl
  rw [sourceOf, sourceOf, hsource, hfile]
  -- A source of its own goes before the default, and that there is one is not changed.
  cases hown : spec.source with
  | some source =>
    refine .ok ⟨rfl, ?_⟩
    intro file hmem
    apply named
    cases source with
    | file name =>
      rw [List.mem_singleton.1 hmem]
      exact InputSpec.mem_files_of_source hown
    | previousSegment => cases hmem
  | none =>
    cases hdefault : (defaults.get spec.kind).file with
    | some file =>
      exact .ok (sourceTurns_file (defaulted file (Defaults.mem_files_of_get hdefault)))
    | none => exact .error _ _

theorem indexOf_rename (defaults : Defaults) (spec : InputSpec) :
    indexOf (defaults.rename rename) (spec.rename rename) = indexOf defaults spec := by
  simp only [indexOf, InputSpec.rename, Defaults.get_rename, StreamDefault.rename]

end Feeds

section Runs

variable {σ τ : Type} {names : ArtifactNames} {files : List String} {rename : String → String}
  {World : σ → τ → Prop} {probe : Probe σ} {other : Probe τ} {defaults : Defaults}

/-- The runs of two resolutions, before and after a renaming. -/
abbrev RunsTurn (names : ArtifactNames) (files : List String) (rename : String → String)
    (World : σ → τ → Prop) : Run σ → Run τ → Prop :=
  Run.Related (Draft.Matches (Renaming.Turns names files rename)) World

theorem lockstep_streamDuration (known : probe.Renamed files rename World other)
    (kind : MediaKind) {source otherSource : SourceRef}
    (turns : SourceTurns files rename source otherSource) :
    Lockstep (RunsTurn names files rename World) Eq (streamDuration probe kind source)
      (streamDuration other kind otherSource) := by
  obtain ⟨rfl, hfiles⟩ := turns
  cases source with
  | previousSegment => exact lockstep_pure rfl
  | file file =>
    have hfile := hfiles file List.mem_cons_self
    apply lockstep_get_bind
    rintro run otherRun ⟨-, worlds⟩
    rw [known.present file hfile run.world otherRun.world worlds]
    split
    · exact Run.lockstep_inWorld (known.duration file hfile)
    · exact lockstep_pure rfl

/-- The feed is the same but for its source. -/
structure FeedTurns (files : List String) (rename : String → String) (feed other : Feed) :
    Prop where
  renamed : other = feed.rename rename
  source : ∀ file ∈ feed.source.files, file ∈ files

theorem lockstep_feedOf (known : probe.Renamed files rename World other) {spec : InputSpec}
    (defaulted : ∀ file ∈ defaults.files, file ∈ files)
    (named : ∀ file ∈ spec.files, file ∈ files) :
    Lockstep (RunsTurn names files rename World) (FeedTurns files rename)
      (feedOf defaults probe spec)
      (feedOf (defaults.rename rename) other (spec.rename rename)) := by
  apply lockstep_get_bind
  rintro run otherRun ⟨drafts, -⟩
  rw [drafts.next]
  apply (lockstep_ofExcept (concur_sourceOf _ defaulted named)).bind
  intro source otherSource turns
  apply (lockstep_streamDuration known spec.kind turns).bind
  rintro duration _ rfl
  obtain ⟨rfl, hfiles⟩ := turns
  rw [indexOf_rename]
  exact lockstep_pure ⟨rfl, hfiles⟩

/-! ## One segment -/

/-- The input and the body of a segment match. -/
def ContentTurns (names : ArtifactNames) (files : List String) (rename : String → String)
    (content other : String × SegmentBody) : Prop :=
  Renaming.Turns names files rename content.1 other.1 ∧ content.2.Matches other.2

variable (renames : Renaming names files rename)
include renames

theorem concur_content (number : Nat) {feed otherFeed : Feed}
    (turns : FeedTurns files rename feed otherFeed) :
    Concur (ContentTurns names files rename) (content number feed) (content number otherFeed) := by
  obtain ⟨rfl, hfiles⟩ := turns
  obtain ⟨kind, source, index, duration⟩ := feed
  cases source with
  | previousSegment =>
    cases kind with
    | audio => exact .error _ _
    | video => exact .error _ _
    | frame => exact .ok ⟨Renaming.turns_still number, .still index⟩
  | file file =>
    have hfile : file ∈ files := hfiles file List.mem_cons_self
    cases kind with
    | audio =>
      apply (Concur.refl (streamOf number .audio index)).map
      rintro stream _ rfl
      exact ⟨Renaming.turns_file hfile, .audio stream⟩
    | video =>
      apply (Concur.refl (streamOf number .video index)).map
      rintro stream _ rfl
      exact ⟨Renaming.turns_file hfile, .video stream⟩
    | frame =>
      -- Both files are documents or neither is.
      simp only [content, Feed.rename, SourceRef.rename, FrameSource.ofFile?,
        renames.document file hfile]
      by_cases hdocument : FrameSource.isDocument file = true
      · simp only [if_pos hdocument]
        exact .ok ⟨Renaming.turns_page hfile hdocument number, .page index index file _⟩
      · simp only [if_neg hdocument]
        exact .ok ⟨Renaming.turns_file hfile, .shown index file _⟩

theorem lockstep_place {feed otherFeed : Feed} (turns : FeedTurns files rename feed otherFeed)
    (punchIn punchOut : Timecode) :
    Lockstep (RunsTurn names files rename World)
      (Segment.Matches (Renaming.Turns names files rename)) (place feed punchIn punchOut)
      (place otherFeed punchIn punchOut) := by
  apply lockstep_get_bind
  rintro run otherRun ⟨drafts, -⟩
  rw [drafts.next]
  apply (lockstep_ofExcept (concur_content renames _ turns)).bind
  rintro ⟨input, body⟩ ⟨otherInput, otherBody⟩ ⟨hinput, hbody⟩
  exact Run.lockstep_create renames.biUnique punchIn punchOut hinput hbody

/-- The segments match one by one. -/
abbrev SegmentsTurn (names : ArtifactNames) (files : List String) (rename : String → String) :
    List Segment → List Segment → Prop :=
  List.Forall₂ (Segment.Matches (Renaming.Turns names files rename))

theorem lockstep_placed {feed otherFeed : Feed} (turns : FeedTurns files rename feed otherFeed)
    (punchIn punchOut : Timecode) :
    Lockstep (RunsTurn names files rename World) (SegmentsTurn names files rename)
      (do let segment ← place feed punchIn punchOut; pure [segment])
      (do let segment ← place otherFeed punchIn punchOut; pure [segment]) := by
  apply (lockstep_place renames turns punchIn punchOut).bind
  intro segment otherSegment matched
  exact lockstep_pure (.cons matched .nil)

theorem lockstep_accept {feed otherFeed : Feed} (turns : FeedTurns files rename feed otherFeed)
    (punchIn punchOut : Timecode) :
    Lockstep (RunsTurn names files rename World) (SegmentsTurn names files rename)
      (accept feed punchIn punchOut) (accept otherFeed punchIn punchOut) := by
  apply lockstep_get_bind
  intro run otherRun _
  -- What becomes of a range is decided by its ends alone.
  by_cases hreversed : punchOut.toNat < punchIn.toNat
  · simp only [if_pos hreversed]
    exact lockstep_throw _ _
  · simp only [if_neg hreversed]
    by_cases hempty : punchOut.toNat = punchIn.toNat
    · simp only [if_pos hempty]
      apply (Run.lockstep_warn _ _).bind
      intro _ _ _
      exact lockstep_pure .nil
    · simp only [if_neg hempty]
      exact lockstep_placed renames turns punchIn punchOut

omit renames

/-! ## The segments of a time list -/

theorem concur_punchInOf (token : TimeToken) :
    Concur Eq (punchInOf token) (punchInOf (token.rename rename)) := by
  cases token with
  | timestamp clock => exact .refl _
  | durationOf file => exact .error _ _

theorem lockstep_referencedDuration (known : probe.Renamed files rename World other)
    {file : String} (hfile : file ∈ files) :
    Lockstep (RunsTurn names files rename World) Eq (referencedDuration probe file)
      (referencedDuration other (rename file)) := by
  apply lockstep_get_bind
  rintro run otherRun ⟨-, worlds⟩
  rw [known.present file hfile run.world otherRun.world worlds]
  by_cases hpresent : probe.present file run.world = true
  · simp only [if_pos hpresent]
    exact (Run.lockstep_inWorld (known.duration file hfile)).mapFailure _ _
  · simp only [if_neg hpresent]
    exact lockstep_throw _ _

theorem lockstep_punchOutOf (known : probe.Renamed files rename World other) (punchIn : Timecode)
    {token : TimeToken} (named : ∀ file, token = .durationOf file → file ∈ files) :
    Lockstep (RunsTurn names files rename World) Eq (punchOutOf probe punchIn token)
      (punchOutOf other punchIn (token.rename rename)) := by
  cases token with
  | timestamp clock => exact lockstep_ofExcept (.refl _)
  | durationOf file =>
    apply (lockstep_referencedDuration known (named file rfl)).bind
    rintro duration _ rfl
    exact lockstep_pure rfl

include renames

theorem lockstep_resolveTimes (known : probe.Renamed files rename World other)
    {feed otherFeed : Feed} (turns : FeedTurns files rename feed otherFeed) (times : List TimeToken)
    (named : ∀ file, .durationOf file ∈ times → file ∈ files) :
    Lockstep (RunsTurn names files rename World) (SegmentsTurn names files rename)
      (resolveTimes probe feed times)
      (resolveTimes other otherFeed (times.map (TimeToken.rename rename))) := by
  -- Induction along the list as it is taken two by two.
  induction times using resolveTimes.induct with
  | case1 => exact lockstep_pure .nil
  | case2 tail =>
    have hduration : otherFeed.duration = feed.duration := by rw [turns.renamed]; rfl
    simp only [List.map_cons, List.map_nil, resolveTimes, hduration]
    apply (lockstep_ofExcept (concur_punchInOf tail)).bind
    rintro punchIn _ rfl
    exact lockstep_accept renames turns punchIn feed.duration
  | case3 first second rest ih =>
    simp only [List.map_cons, resolveTimes]
    apply (lockstep_ofExcept (concur_punchInOf first)).bind
    rintro punchIn _ rfl
    have hsecond : ∀ file, second = .durationOf file → file ∈ files := by
      rintro file rfl
      apply named
      simp
    apply (lockstep_punchOutOf known punchIn hsecond).bind
    rintro punchOut _ rfl
    apply (lockstep_accept renames turns punchIn punchOut).bind
    intro made otherMade hmade
    -- The other times name no more files than all of them do.
    have hrest : ∀ file, .durationOf file ∈ rest → file ∈ files := by
      intro file hfile
      exact named file (List.mem_cons_of_mem first (List.mem_cons_of_mem second hfile))
    apply (ih hrest).bind
    intro others otherOthers hothers
    exact lockstep_pure (List.rel_append hmade hothers)

theorem lockstep_resolveWhole {feed otherFeed : Feed}
    (turns : FeedTurns files rename feed otherFeed) :
    Lockstep (RunsTurn names files rename World) (SegmentsTurn names files rename)
      (resolveWhole feed) (resolveWhole otherFeed) := by
  have hduration : otherFeed.duration = feed.duration := by rw [turns.renamed]; rfl
  apply lockstep_get_bind
  intro run otherRun _
  rw [hduration]
  by_cases hempty : feed.duration = .zero
  · simp only [if_pos hempty]
    apply (Run.lockstep_warn _ _).bind
    intro _ _ _
    exact lockstep_placed renames turns .zero feed.duration
  · simp only [if_neg hempty]
    exact lockstep_placed renames turns .zero feed.duration

/-! ## The segments of all specifications -/

theorem lockstep_resolveSpec (known : probe.Renamed files rename World other) {spec : InputSpec}
    (defaulted : ∀ file ∈ defaults.files, file ∈ files)
    (named : ∀ file ∈ spec.files, file ∈ files) :
    Lockstep (RunsTurn names files rename World) (SegmentsTurn names files rename)
      (resolveSpec defaults probe spec)
      (resolveSpec (defaults.rename rename) other (spec.rename rename)) := by
  apply (lockstep_feedOf known defaulted named).bind
  intro feed otherFeed turns
  have hempty : (spec.rename rename).times.isEmpty = spec.times.isEmpty := by
    simp [InputSpec.rename]
  rw [hempty]
  by_cases htimes : spec.times.isEmpty = true
  · rw [if_pos htimes, if_pos htimes]
    exact lockstep_resolveWhole renames turns
  · rw [if_neg htimes, if_neg htimes]
    apply lockstep_resolveTimes renames known turns
    intro file hfile
    exact named file (InputSpec.mem_files_of_times hfile)

theorem lockstep_resolveSpecs (known : probe.Renamed files rename World other)
    (specs : List InputSpec) (used : ∀ file ∈ userFiles defaults specs, file ∈ files) :
    Lockstep (RunsTurn names files rename World) (SegmentsTurn names files rename)
      (resolveSpecs defaults probe specs)
      (resolveSpecs (defaults.rename rename) other (specs.map (InputSpec.rename rename))) := by
  induction specs with
  | nil => exact lockstep_pure .nil
  | cons spec rest ih =>
    have hdefaults : ∀ file ∈ defaults.files, file ∈ files :=
      fun file hfile => used file (List.mem_append_left _ hfile)
    have hspec : ∀ file ∈ spec.files, file ∈ files := by
      intro file hfile
      apply used file (List.mem_append_right _ _)
      rw [List.flatMap_cons]
      exact List.mem_append_left _ hfile
    have hrest : ∀ file ∈ userFiles defaults rest, file ∈ files := by
      intro file hfile
      apply used file
      rcases List.mem_append.1 hfile with hdefault | hother
      · exact List.mem_append_left _ hdefault
      · rw [userFiles, List.flatMap_cons]
        exact List.mem_append_right _ (List.mem_append_right _ hother)
    apply (lockstep_resolveSpec renames known hdefaults hspec).bind
    intro made otherMade hmade
    apply (ih hrest).bind
    intro others otherOthers hothers
    exact lockstep_pure (List.rel_append hmade hothers)

/-- With files under other names the timeline has the same segments, under the other names. -/
theorem lockstep_resolve (known : probe.Renamed files rename World other)
    (specs : List InputSpec) (used : ∀ file ∈ userFiles defaults specs, file ∈ files) :
    Lockstep (RunsTurn names files rename World)
      (fun timeline otherTimeline =>
        SegmentsTurn names files rename timeline.segments otherTimeline.segments)
      (resolve defaults probe specs)
      (resolve (defaults.rename rename) other (specs.map (InputSpec.rename rename))) := by
  apply (lockstep_resolveSpecs renames known specs used).bind
  intro segments otherSegments matched
  apply (Run.lockstep_warn _ _).bind
  intro _ _ _
  exact lockstep_pure matched

end Runs

end Timeline

end EpisodeCut
