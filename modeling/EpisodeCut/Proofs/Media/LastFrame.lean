import EpisodeCut.Media.FileMaterializer
import EpisodeCut.Proofs.Media.ProbeHistory
import EpisodeCut.Proofs.Run.Keeps
import EpisodeCut.Proofs.Workspace.Confined

/-!
# Finding the last frame

The last frame of a clip is searched for in steps: the end of the clip is copied, the frames of the
copy are counted, and one of them is taken. `FileMaterializer.Search` lists how this can end; it
leaves open where the count comes from, which may be a run of the probing tool
(`FileProbe.Report`) or an answer that was kept (`FileProbe.Inquiry`). However a search ends, the
scratch file is gone.

Copies of one clip follow one another at one path, and answers are kept by path. The count is that
of the copy at hand as long as every copy is newer than whatever has been looked at under its path
before (`FileMaterializer.History.CopiesAdvance`). It does not suffice that it is newer than the
copies before it, since a clip may have the name of a scratch file
(`FileMaterializer.History.namesake`).
-/

set_option autoImplicit false

namespace EpisodeCut

open Workspace (ToolRun)

namespace FileProbe

variable {path : Path} {probe later : FileProbe} {answer : Except Failure MediaInfo}

/-! ## Inquiries -/

/-- How a run of the probing tool ends, and what is kept of it. -/
inductive Report (path : Path) (probe : FileProbe) :
    Except Failure MediaInfo → FileProbe → Prop where
  | unrun {failure : Failure} {workspace : Workspace}
    (run : ToolRun probeTool "probe" path (arguments path) probe.workspace
      (.error failure) workspace) :
    Report path probe (.error failure) { probe with workspace := workspace }
  /-- The output is refused. -/
  | unread {output : List UInt8} {failure : Failure} {workspace : Workspace}
    (run : ToolRun probeTool "probe" path (arguments path) probe.workspace (.ok output) workspace)
    (refusal : MediaInfo.ofOutput output path = .error failure) :
    Report path probe (.error failure) ⟨workspace, probe.cache.countRun⟩
  | read {output : List UInt8} {info : MediaInfo} {workspace : Workspace}
    (run : ToolRun probeTool "probe" path (arguments path) probe.workspace (.ok output) workspace)
    (reading : MediaInfo.ofOutput output path = .ok info) :
    Report path probe (.ok info)
      ⟨workspace, probe.cache.countRun.insert path ⟨probe.workspace.tree.modified? path, info⟩⟩

/-- How an inspection ends: with an answer that is still good, or as a run of the tool does. -/
inductive Inquiry (path : Path) (probe : FileProbe) :
    Except Failure MediaInfo → FileProbe → Prop where
  | kept {record : ProbeRecord} (found : probe.cache.find? path = some record)
    (fresh : record.isStale (probe.workspace.tree.modified? path) = false) :
    Inquiry path probe (.ok record.info) probe
  | reported {answer : Except Failure MediaInfo} {later : FileProbe}
    (stale : ∀ record, probe.cache.find? path = some record →
      record.isStale (probe.workspace.tree.modified? path) = true)
    (report : Report path probe answer later) : Inquiry path probe answer later

theorem report_ask (path : Path) (probe : FileProbe) :
    Report path probe ((ask path (probe.workspace.tree.modified? path)).answer probe)
      ((ask path (probe.workspace.tree.modified? path)).after probe) := by
  have hrun := Workspace.toolRun_capture probeTool "probe" path (arguments path) probe.workspace
  cases hcapture : Workspace.capture probeTool "probe" path (arguments path) probe.workspace with
  | error failure workspace =>
    rw [Action.answer_of_error hcapture, Action.after_of_error hcapture] at hrun
    have hask : ask path (probe.workspace.tree.modified? path) probe =
        .error failure { probe with workspace := workspace } := by
      refine Action.bind_eq_of_error ?_
      simp only [inWorkspace, Action.within, hcapture]
    rw [Action.answer_of_error hask, Action.after_of_error hask]
    exact .unrun hrun
  | ok output workspace =>
    rw [Action.answer_of_ok hcapture, Action.after_of_ok hcapture] at hrun
    have houtput : inWorkspace (Workspace.capture probeTool "probe" path (arguments path)) probe =
        .ok output { probe with workspace := workspace } := by
      simp only [inWorkspace, Action.within, hcapture]
    have hask : ask path (probe.workspace.tree.modified? path) probe = _ :=
      Action.bind_eq_of_ok houtput
    rw [Action.modify_bind] at hask
    cases hinfo : MediaInfo.ofOutput output path with
    | error failure =>
      rw [hinfo] at hask
      have hrefused := hask.trans (Action.bind_eq_of_error rfl)
      rw [Action.answer_of_error hrefused, Action.after_of_error hrefused]
      exact .unread hrun hinfo
    | ok info =>
      rw [hinfo] at hask
      have hkept := hask.trans (Action.bind_eq_of_ok rfl)
      rw [Action.answer_of_ok hkept, Action.after_of_ok hkept]
      exact .read hrun hinfo

theorem inquiry_inspect (path : Path) (probe : FileProbe) :
    Inquiry path probe ((inspect path).answer probe) ((inspect path).after probe) := by
  have hinspect := inspect_eq_pursue path probe
  have hreport := report_ask path probe
  simp only [Action.answer, Action.after] at hreport ⊢
  cases hfind : probe.cache.find? path with
  | none =>
    simp only [consult, hfind] at hinspect
    rw [hinspect]
    refine .reported ?_ hreport
    intro record hrecord
    rw [hfind] at hrecord
    cases hrecord
  | some record =>
    cases hstale : record.isStale (probe.workspace.tree.modified? path) with
    | true =>
      simp only [consult, hfind, hstale, if_true] at hinspect
      rw [hinspect]
      refine .reported ?_ hreport
      intro other hother
      rw [hfind] at hother
      cases hother
      exact hstale
    | false =>
      simp only [consult, hfind, hstale, Bool.false_eq_true, if_false] at hinspect
      rw [hinspect]
      exact .kept hfind hstale

/-- If everything that is kept is out of date, the tool is run. -/
theorem Inquiry.report (inquiry : Inquiry path probe answer later)
    (stale : ∀ record, probe.cache.find? path = some record →
      record.isStale (probe.workspace.tree.modified? path) = true) :
    Report path probe answer later := by
  cases inquiry with
  | kept found fresh =>
    rw [stale _ found] at fresh
    cases fresh
  | reported _ report => exact report

/-- What is kept after an inquiry was kept before, or says when the file was last modified. -/
theorem Inquiry.mem_records (inquiry : Inquiry path probe answer later) {entry : Path × ProbeRecord}
    (h : entry ∈ later.cache.records) :
    entry ∈ probe.cache.records ∨
      entry.1 = path ∧ entry.2.modified = probe.workspace.tree.modified? path := by
  cases inquiry with
  | kept => exact .inl h
  | reported _ report =>
    cases report with
    | unrun => exact .inl h
    | unread => exact .inl h
    | read =>
      rcases ProbeCache.mem_records_insert h with rfl | h
      · exact .inr ⟨rfl, rfl⟩
      · exact .inl h

end FileProbe

namespace FileMaterializer

open FileProbe (Inquiry Report inspect inWorkspace inquiry_inspect)

variable {media destination : Path} {probe later : FileProbe} {answer : Except Failure Unit}

/-! ## Searches -/

/-- How the copying of the end of a clip ends. -/
inductive TailCopy (media : Path) (probe : FileProbe) : Except Failure Unit → FileProbe → Prop where
  | unprobed {failure : Failure} {later : FileProbe}
    (clip : Inquiry media probe (.error failure) later) :
    TailCopy media probe (.error failure) later
  | copied {info : MediaInfo} {probed : FileProbe} {answer : Except Failure (List UInt8)}
    {workspace : Workspace} (clip : Inquiry media probe (.ok info) probed)
    (copy : ToolRun renderTool "copy last seconds" media
      (tailArguments media ((info.duration.sub? tailLength).getD .zero) (scratchPath media))
      probed.workspace answer workspace) :
    TailCopy media probe (answer.map fun _ => ()) { probed with workspace := workspace }

/-- How the search for the last frame of a clip ends. Each step is taken only after the one before
it has succeeded. What is known about the copy, in particular how many frames it has, comes from
`Count`. -/
inductive Search (Count : FileProbe → Except Failure MediaInfo → FileProbe → Prop)
    (media destination : Path) (probe : FileProbe) : Except Failure Unit → FileProbe → Prop where
  | uncopied {failure : Failure} {later : FileProbe}
    (copy : TailCopy media probe (.error failure) later) :
    Search Count media destination probe (.error failure) later
  | unprobed {failure : Failure} {copied later : FileProbe}
    (copy : TailCopy media probe (.ok ()) copied) (count : Count copied (.error failure) later) :
    Search Count media destination probe (.error failure) later
  | uncounted {info : MediaInfo} {copied later : FileProbe}
    (copy : TailCopy media probe (.ok ()) copied) (count : Count copied (.ok info) later)
    (unknown : info.videoFrames = none) :
    Search Count media destination probe
      (.error (.tool probeTool "count frames" (scratchPath media) .uncountedFrames)) later
  | counted {info : MediaInfo} {frames : Nat} {copied probed : FileProbe}
    {answer : Except Failure (List UInt8)} {workspace : Workspace}
    (copy : TailCopy media probe (.ok ()) copied) (count : Count copied (.ok info) probed)
    (known : info.videoFrames = some frames)
    (take : ToolRun renderTool "extract frame" media
      (frameArguments (scratchPath media) (frames - 1) destination) probed.workspace
      answer workspace) :
    Search Count media destination probe (answer.map fun _ => ())
      { probed with workspace := workspace }

/-- A tool whose output is not looked at runs on the workspace of a probe. -/
theorem toolRun_discard (tool operation : String) (subject : Path) (arguments : List String)
    (probe : FileProbe) :
    ∃ answer workspace, ToolRun tool operation subject arguments probe.workspace answer workspace ∧
      (Functor.discard (inWorkspace (Workspace.capture tool operation subject arguments))).answer
        probe = answer.map (fun _ => ()) ∧
      (Functor.discard (inWorkspace (Workspace.capture tool operation subject arguments))).after
        probe = { probe with workspace := workspace } := by
  refine ⟨_, _, Workspace.toolRun_capture tool operation subject arguments probe.workspace, ?_, ?_⟩
  · rw [Action.answer_discard, inWorkspace, Action.answer_within]
  · rw [Action.after_discard, inWorkspace, Action.after_within]

theorem tailCopy_copyTail (media : Path) (probe : FileProbe) :
    TailCopy media probe ((copyTail media (scratchPath media)).answer probe)
      ((copyTail media (scratchPath media)).after probe) := by
  have hclip := inquiry_inspect media probe
  cases hinspect : inspect media probe with
  | error failure probed =>
    rw [Action.answer_of_error hinspect, Action.after_of_error hinspect] at hclip
    rw [copyTail, Action.answer_bind_of_error hinspect, Action.after_bind_of_error hinspect]
    exact .unprobed hclip
  | ok info probed =>
    rw [Action.answer_of_ok hinspect, Action.after_of_ok hinspect] at hclip
    rw [copyTail, Action.answer_bind_of_ok hinspect, Action.after_bind_of_ok hinspect]
    obtain ⟨answer, workspace, hcopy, hanswer, hafter⟩ := toolRun_discard renderTool
      "copy last seconds" media
      (tailArguments media ((info.duration.sub? tailLength).getD .zero) (scratchPath media)) probed
    rw [hanswer, hafter]
    exact .copied hclip hcopy

/-- The search for the last frame of a clip, before the scratch file is removed. -/
def search (media destination : Path) : Action FileProbe Unit := do
  copyTail media (scratchPath media)
  let frames ← countFrames (scratchPath media)
  takeFrame media (scratchPath media) (frames - 1) destination

theorem lastFrame_eq (media destination : Path) :
    lastFrame media destination =
      (search media destination).andFinally (discardScratch (scratchPath media)) :=
  rfl

theorem search_search {Count : FileProbe → Except Failure MediaInfo → FileProbe → Prop}
    (hcount : ∀ copied, copyTail media (scratchPath media) probe = .ok () copied →
      Count copied ((inspect (scratchPath media)).answer copied)
        ((inspect (scratchPath media)).after copied)) (destination : Path) :
    Search Count media destination probe ((search media destination).answer probe)
      ((search media destination).after probe) := by
  have htail := tailCopy_copyTail media probe
  cases hcopy : copyTail media (scratchPath media) probe with
  | error failure later =>
    rw [Action.answer_of_error hcopy, Action.after_of_error hcopy] at htail
    rw [search, Action.answer_bind_of_error hcopy, Action.after_bind_of_error hcopy]
    exact .uncopied htail
  | ok _ copied =>
    rw [Action.answer_of_ok hcopy, Action.after_of_ok hcopy] at htail
    rw [search, Action.answer_bind_of_ok hcopy, Action.after_bind_of_ok hcopy]
    have hcounted := hcount copied hcopy
    cases hinspect : inspect (scratchPath media) copied with
    | error failure later =>
      rw [Action.answer_of_error hinspect, Action.after_of_error hinspect] at hcounted
      have hframes : countFrames (scratchPath media) copied = .error failure later :=
        Action.bind_eq_of_error hinspect
      rw [Action.answer_bind_of_error hframes, Action.after_bind_of_error hframes]
      exact .unprobed htail hcounted
    | ok info probed =>
      rw [Action.answer_of_ok hinspect, Action.after_of_ok hinspect] at hcounted
      have hframes : countFrames (scratchPath media) copied = _ := Action.bind_eq_of_ok hinspect
      cases hknown : info.videoFrames with
      | none =>
        rw [hknown] at hframes
        rw [Action.answer_bind_of_error hframes, Action.after_bind_of_error hframes]
        exact .uncounted htail hcounted hknown
      | some frames =>
        rw [hknown] at hframes
        rw [Action.answer_bind_of_ok hframes, Action.after_bind_of_ok hframes]
        obtain ⟨answer, workspace, htake, hanswer, hafter⟩ := toolRun_discard renderTool
          "extract frame" media (frameArguments (scratchPath media) (frames - 1) destination) probed
        rw [takeFrame, hanswer, hafter]
        exact .counted htail hcounted hknown htake

/-! ## Histories -/

/-- A file that has been looked at for what is known about it. -/
structure Look where
  path : Path
  modified : Option Nat
  /-- The file is a copy that has just been made. -/
  isCopy : Bool
  deriving DecidableEq

/-- The file was older when it was looked at in the first of two looks. -/
def Look.OlderThan (look later : Look) : Prop :=
  ∃ before now, look.modified = some before ∧ later.modified = some now ∧ before < now

instance (look later : Look) : Decidable (look.OlderThan later) :=
  match hbefore : look.modified, hnow : later.modified with
  | some before, some now =>
    if h : before < now then isTrue ⟨before, now, hbefore, hnow, h⟩
    else isFalse fun ⟨_, _, hbefore', hnow', hlt⟩ => by
      rw [hbefore] at hbefore'
      rw [hnow] at hnow'
      cases hbefore'
      cases hnow'
      exact h hlt
  | none, _ => isFalse fun ⟨_, _, hbefore', _⟩ => by
    rw [hbefore] at hbefore'
    cases hbefore'
  | some _, none => isFalse fun ⟨_, _, _, hnow', _⟩ => by
    rw [hnow] at hnow'
    cases hnow'

/-- What is looked at to find the last frame of a clip: the clip, and the copy if there is one. -/
def searchLooks (media : Path) (probe : FileProbe) : List Look :=
  let clip : Look := ⟨media, probe.workspace.tree.modified? media, false⟩
  match copyTail media (scratchPath media) probe with
  | .error .. => [clip]
  | .ok _ copied =>
    [⟨scratchPath media, copied.workspace.tree.modified? (scratchPath media), true⟩, clip]

/-- What is looked at to carry out an order, the last file in front. -/
def looks : FrameOrder → FileProbe → List Look
  | .extract media .last destination, probe =>
    match inWorkspace (Workspace.makeParent destination) probe with
    | .error .. => []
    | .ok _ made => searchLooks media made
  | _, _ => []

/-- Something that happens to the one who produces frames. -/
inductive Event where
  /-- Others change the files and the tools. -/
  | interfere (workspace : Workspace)
  | order (order : FrameOrder)

/-- The workspace with what is kept, and all looks so far, the last one in front. -/
structure History where
  probe : FileProbe
  looks : List Look

namespace History

/-- Nothing has happened yet. -/
def start (workspace : Workspace) : History := ⟨⟨workspace, .empty⟩, []⟩

/-- One more event. -/
def step (history : History) : Event → History
  | .interfere workspace =>
    { history with probe := { history.probe with workspace := workspace } }
  | .order order =>
    ⟨(perform order).after history.probe,
      FileMaterializer.looks order history.probe ++ history.looks⟩

/-- The history of events that begins in a workspace. -/
def of (workspace : Workspace) (events : List Event) : History :=
  events.foldl step (start workspace)

/-- Whenever a copy is looked at, it is newer than everything looked at before under its path. -/
def CopiesAdvance (history : History) : Prop :=
  history.looks.Pairwise fun later look =>
    later.isCopy = true → Path.same look.path later.path = true → look.OlderThan later

instance (history : History) : Decidable history.CopiesAdvance :=
  inferInstanceAs (Decidable (history.looks.Pairwise _))

end History

/-- Every kept answer tells the time of a look at the file. -/
def Backed (looks : List Look) (probe : FileProbe) : Prop :=
  ∀ entry ∈ probe.cache.records, ∃ look ∈ looks,
    Path.same look.path entry.1 = true ∧ look.modified = entry.2.modified

variable {old more : List Look} {workspace : Workspace}

theorem Backed.mono (backed : Backed old probe) (h : old ⊆ more) : Backed more probe := by
  intro entry hentry
  obtain ⟨look, hlook, htells⟩ := backed entry hentry
  exact ⟨look, h hlook, htells⟩

theorem Backed.congr (backed : Backed old probe) (h : later.cache = probe.cache) :
    Backed old later := by
  rw [Backed, h]
  exact backed

/-- An inquiry adds no other look than the one that it begins with. -/
theorem Backed.inquiry (backed : Backed old probe) {path : Path} {answer : Except Failure MediaInfo}
    (inquiry : Inquiry path probe answer later) (isCopy : Bool) :
    Backed (⟨path, probe.workspace.tree.modified? path, isCopy⟩ :: old) later := by
  intro entry hentry
  rcases inquiry.mem_records hentry with hold | ⟨rfl, hmodified⟩
  · exact backed.mono (List.subset_cons_self _ old) entry hold
  · exact ⟨_, List.mem_cons_self, Path.same_self entry.1, hmodified.symm⟩

theorem Backed.tailCopy (backed : Backed old probe) (copy : TailCopy media probe answer later) :
    Backed (⟨media, probe.workspace.tree.modified? media, false⟩ :: old) later := by
  cases copy with
  | unprobed clip => exact backed.inquiry clip false
  | copied clip copy => exact backed.inquiry clip false

/-- What is kept for the path of a copy is out of date if the copy is newer than everything looked
at under the path. -/
theorem Backed.stale (backed : Backed old probe) {path : Path} {modified : Option Nat}
    (advances : ∀ look ∈ old, Path.same look.path path = true →
      look.OlderThan ⟨path, modified, true⟩)
    (record : ProbeRecord) (h : probe.cache.find? path = some record) :
    record.isStale modified = true := by
  obtain ⟨twin, hmem, hsame⟩ := ProbeCache.mem_of_find? h
  obtain ⟨look, hlook, hpath, hmodified⟩ := backed (twin, record) hmem
  have hcomponents : Path.same look.path path = true := by
    simp only [Path.same, beq_iff_eq] at hpath hsame ⊢
    rw [hpath, hsame]
  obtain ⟨before, now, hbefore, hnow, hlt⟩ := advances look hlook hcomponents
  have hrecord : record.modified = some before := hmodified.symm.trans hbefore
  have htime : modified = some now := hnow
  simp only [ProbeRecord.isStale, hrecord, htime, hlt, decide_true]

theorem mem_searchLooks (media : Path) (probe : FileProbe) :
    ⟨media, probe.workspace.tree.modified? media, false⟩ ∈ searchLooks media probe := by
  rw [searchLooks]
  cases copyTail media (scratchPath media) probe with
  | error failure later => exact List.mem_cons_self
  | ok _ copied => exact List.mem_cons_of_mem _ List.mem_cons_self

theorem searchLooks_of_copied {copied : FileProbe}
    (h : copyTail media (scratchPath media) probe = .ok () copied) :
    searchLooks media probe =
      [⟨scratchPath media, copied.workspace.tree.modified? (scratchPath media), true⟩,
        ⟨media, probe.workspace.tree.modified? media, false⟩] := by
  rw [searchLooks, h]

theorem Backed.search (backed : Backed old probe) (media destination : Path) :
    Backed (searchLooks media probe ++ old) ((search media destination).after probe) := by
  have hclip : ⟨media, probe.workspace.tree.modified? media, false⟩ :: old ⊆
      searchLooks media probe ++ old :=
    List.cons_subset.2 ⟨List.mem_append_left old (mem_searchLooks media probe),
      List.subset_append_right _ old⟩
  -- Of an inquiry it is kept that it begins where the copying has ended.
  have hsearch : Search
      (fun copied answer later =>
        copyTail media (scratchPath media) probe = .ok () copied ∧
          Inquiry (scratchPath media) copied answer later)
      media destination probe ((FileMaterializer.search media destination).answer probe)
      ((FileMaterializer.search media destination).after probe) :=
    search_search (fun copied hcopied => ⟨hcopied, inquiry_inspect _ copied⟩) destination
  have hcounted {answer : Except Failure MediaInfo} {copied later : FileProbe}
      (copy : TailCopy media probe (.ok ()) copied)
      (count : copyTail media (scratchPath media) probe = .ok () copied ∧
        Inquiry (scratchPath media) copied answer later) :
      Backed (searchLooks media probe ++ old) later := by
    rw [searchLooks_of_copied count.1]
    exact (backed.tailCopy copy).inquiry count.2 true
  generalize (FileMaterializer.search media destination).answer probe = answer,
    (FileMaterializer.search media destination).after probe = later at hsearch
  cases hsearch with
  | uncopied copy => exact (backed.tailCopy copy).mono hclip
  | unprobed copy count => exact hcounted copy count
  | uncounted copy count => exact hcounted copy count
  | counted copy count known take => exact (hcounted copy count).congr rfl

theorem cache_inWorkspace {α : Type} (action : Action Workspace α) (probe : FileProbe) :
    ((inWorkspace action).after probe).cache = probe.cache := by
  rw [inWorkspace, Action.after_within]

theorem Backed.extractFrame (backed : Backed old probe) (media : Path) (frame : FrameNumber)
    (destination : Path) :
    Backed (looks (.extract media frame destination) probe ++ old)
      ((extractFrame media frame destination).after probe) := by
  have hcache := cache_inWorkspace (Workspace.makeParent destination) probe
  cases hparent : inWorkspace (Workspace.makeParent destination) probe with
  | error failure later =>
    rw [Action.after_of_error hparent] at hcache
    have hafter : (FileMaterializer.extractFrame media frame destination).after probe = later :=
      Action.after_bind_of_error hparent
    rw [hafter]
    exact (backed.congr hcache).mono (List.subset_append_right _ old)
  | ok _ made =>
    rw [Action.after_of_ok hparent] at hcache
    have hmade : Backed old made := backed.congr hcache
    cases frame with
    | index n =>
      have hafter : (FileMaterializer.extractFrame media (.index n) destination).after probe =
          (takeFrame media media n.toNat destination).after made := Action.after_bind_of_ok hparent
      rw [hafter, takeFrame, Action.after_discard]
      exact hmade.congr (cache_inWorkspace _ made)
    | last =>
      have hafter : (FileMaterializer.extractFrame media .last destination).after probe =
          (lastFrame media destination).after made := Action.after_bind_of_ok hparent
      rw [hafter, lastFrame_eq, Action.after_andFinally]
      simp only [looks, hparent]
      exact (hmade.search media destination).congr rfl

namespace History

/-- Every event leaves what is kept told by a look. -/
theorem backed_step {history : History} (backed : Backed history.looks history.probe)
    (event : Event) : Backed (history.step event).looks (history.step event).probe := by
  cases event with
  | interfere workspace => exact backed
  | order order =>
    cases order with
    | render segment destination => exact backed.congr (cache_inWorkspace _ history.probe)
    | rasterize document page size destination =>
      exact backed.congr (cache_inWorkspace _ history.probe)
    | extract media frame destination => exact backed.extractFrame media frame destination

theorem backed_of (workspace : Workspace) (events : List Event) :
    Backed (of workspace events).looks (of workspace events).probe := by
  have hfoldl (history : History) (backed : Backed history.looks history.probe) :
      Backed (events.foldl step history).looks (events.foldl step history).probe := by
    induction events generalizing history with
    | nil => exact backed
    | cons event rest ih => exact ih (history.step event) (backed_step backed event)
  exact hfoldl (start workspace) nofun

/-- If copies advance, the copy of a search is looked at by running the tool. -/
theorem report_of_copiesAdvance {history : History} (backed : Backed history.looks history.probe)
    {made copied : FileProbe}
    (hmade : inWorkspace (Workspace.makeParent destination) history.probe = .ok () made)
    (advance : (history.step (.order (.extract media .last destination))).CopiesAdvance)
    (hcopied : copyTail media (scratchPath media) made = .ok () copied) :
    Report (scratchPath media) copied ((inspect (scratchPath media)).answer copied)
      ((inspect (scratchPath media)).after copied) := by
  refine (inquiry_inspect (scratchPath media) copied).report ?_
  have hcache := cache_inWorkspace (Workspace.makeParent destination) history.probe
  rw [Action.after_of_ok hmade] at hcache
  have htail := tailCopy_copyTail media made
  rw [Action.answer_of_ok hcopied, Action.after_of_ok hcopied] at htail
  -- Before the copy there is the look at the clip, and what the history has seen.
  have hkept := (backed.congr hcache).tailCopy htail
  have hlooks : (history.step (.order (.extract media .last destination))).looks =
      searchLooks media made ++ history.looks := by
    simp only [step, FileMaterializer.looks, hmade]
  rw [CopiesAdvance, hlooks, searchLooks_of_copied hcopied] at advance
  exact hkept.stale fun look hlook hsame => (List.pairwise_cons.1 advance).1 look hlook rfl hsame

/-- Whatever has happened before: a frame with a number is taken from the clip itself, and the last
one is searched for in a copy of its end, step by step, and the copy is gone in the end. If copies
advance, the frames are counted by a run of the tool on the copy that has just been made. -/
theorem finds_last_frame {workspace : Workspace} {events : List Event} {destination : Path}
    {made : FileProbe}
    (hmade : inWorkspace (Workspace.makeParent destination) (of workspace events).probe =
      .ok () made) (media : Path) :
    (∀ n, ∃ answer later,
      ToolRun renderTool "extract frame" media (frameArguments media n.toNat destination)
        made.workspace answer later ∧
      (extractFrame media (.index n) destination).answer (of workspace events).probe =
        answer.map (fun _ => ()) ∧
      (extractFrame media (.index n) destination).after (of workspace events).probe =
        { made with workspace := later }) ∧
    ∃ answer found,
      (extractFrame media .last destination).answer (of workspace events).probe = answer ∧
      (extractFrame media .last destination).after (of workspace events).probe =
        discardScratch (scratchPath media) found ∧
      Search (Inquiry (scratchPath media)) media destination made answer found ∧
      (∀ content, (discardScratch (scratchPath media) found).workspace.tree.read
        (scratchPath media) ≠ .ok content) ∧
      (((of workspace events).step (.order (.extract media .last destination))).CopiesAdvance →
        Search (Report (scratchPath media)) media destination made answer found) := by
  refine ⟨fun n => ?_, (search media destination).answer made,
    (search media destination).after made, ?_, ?_, ?_, ?_, ?_⟩
  · have hanswer : (extractFrame media (.index n) destination).answer (of workspace events).probe =
        (takeFrame media media n.toNat destination).answer made := Action.answer_bind_of_ok hmade
    have hafter : (extractFrame media (.index n) destination).after (of workspace events).probe =
        (takeFrame media media n.toNat destination).after made := Action.after_bind_of_ok hmade
    rw [hanswer, hafter]
    exact toolRun_discard renderTool "extract frame" media
      (frameArguments media n.toNat destination) made
  · have hanswer : (extractFrame media .last destination).answer (of workspace events).probe =
        (lastFrame media destination).answer made := Action.answer_bind_of_ok hmade
    rw [hanswer, lastFrame_eq, Action.answer_andFinally]
  · have hafter : (extractFrame media .last destination).after (of workspace events).probe =
        (lastFrame media destination).after made := Action.after_bind_of_ok hmade
    rw [hafter, lastFrame_eq, Action.after_andFinally]
  · exact search_search (fun copied _ => inquiry_inspect _ copied) destination
  · intro content
    rw [discardScratch, Workspace.tree_remove]
    exact FileTree.read_without_ne_ok _ _ _ _
  · intro advance
    exact search_search
      (fun _ hcopied => report_of_copiesAdvance (backed_of workspace events) hmade advance hcopied)
      destination

/-! ## One clip after another -/

/-- A run of the probing tool that finds a minute of video with some frames. -/
def reporting (frames : Nat) : Reply :=
  { Reply.silent with
    stdout := ("\x7b\x22format\x22:\x7b\x22duration\x22:\x2260\x22\x7d,\x22streams\x22:[\x7b" ++
      "\x22codec_type\x22:\x22video\x22,\x22nb_frames\x22:\x22" ++ Text.Numeral.text frames ++
      "\x22\x7d]\x7d").toUTF8.toList }

/-- A run of a tool that writes one file. -/
def writing (path : Path) (modified : Nat) : Reply :=
  { Reply.silent with writes := [⟨path, modified, [1]⟩] }

/-- A directory with two clips, one of which is called like the copies of the end of the other. -/
def studio (replies : List Reply) : Workspace where
  tree := ((FileTree.bare ["show"]).put ["show", "take.mov"] (.file 1000 [])).put
    ["show", "__take.mov"] (.file 5000 [])
  now := 0
  tools := [(probeTool, .ready), (renderTool, .ready)]
  script := .ofList replies
  invocations := []
  console := []
  complaints := ""

/-- The last frame of a clip is to be taken. -/
def takeLast (media destination : Path) : Event := .order (.extract media .last destination)

/-- Images go where the run takes place. -/
theorem makeParent_second (probe : FileProbe) :
    inWorkspace (Workspace.makeParent "second.jpg") probe = .ok () probe :=
  rfl

/-- The last frame of one clip is taken twice; the second copy has one frame less. -/
def repeated : Workspace :=
  studio [reporting 1500, writing "__take.mov" 6000, reporting 125, writing "first.jpg" 6001,
    writing "__take.mov" 7000, reporting 124, writing "second.jpg" 7001]

theorem finds_last_frame_repeated :
    inWorkspace (Workspace.makeParent "second.jpg")
      (of repeated [takeLast "take.mov" "first.jpg"]).probe =
        .ok () (of repeated [takeLast "take.mov" "first.jpg"]).probe ∧
    (of repeated [takeLast "take.mov" "first.jpg",
      takeLast "take.mov" "second.jpg"]).CopiesAdvance ∧
    ∃ answer found,
      (extractFrame "take.mov" .last "second.jpg").answer
        (of repeated [takeLast "take.mov" "first.jpg"]).probe = answer ∧
      (extractFrame "take.mov" .last "second.jpg").after
        (of repeated [takeLast "take.mov" "first.jpg"]).probe =
          discardScratch (scratchPath "take.mov") found ∧
      (∀ content, (discardScratch (scratchPath "take.mov") found).workspace.tree.read
        (scratchPath "take.mov") ≠ .ok content) ∧
      Search (Report (scratchPath "take.mov")) "take.mov" "second.jpg"
        (of repeated [takeLast "take.mov" "first.jpg"]).probe answer found := by
  have hlooks : (of repeated [takeLast "take.mov" "first.jpg",
      takeLast "take.mov" "second.jpg"]).looks =
        [⟨"__take.mov", some 7000, true⟩, ⟨"take.mov", some 1000, false⟩,
          ⟨"__take.mov", some 6000, true⟩, ⟨"take.mov", some 1000, false⟩] := by
    decide +kernel
  have hadvance : (of repeated [takeLast "take.mov" "first.jpg",
      takeLast "take.mov" "second.jpg"]).CopiesAdvance := by
    rw [CopiesAdvance, hlooks]
    decide
  obtain ⟨-, answer, found, hanswer, hafter, -, hgone, hsearch⟩ :=
    finds_last_frame (makeParent_second _) "take.mov"
  exact ⟨makeParent_second _, hadvance, answer, found, hanswer, hafter, hgone, hsearch hadvance⟩

/-- The frame is the last one of the second copy. -/
example : (of repeated [takeLast "take.mov" "first.jpg",
      takeLast "take.mov" "second.jpg"]).probe.workspace.invocations.getLast? =
    some ⟨renderTool, frameArguments "__take.mov" 123 "second.jpg"⟩ := by
  decide +kernel

/-- A search that succeeds runs the probing tool on the copy right before it takes the frame, if the
count comes from a run. -/
theorem invocations_of_search {made found : FileProbe}
    (search : Search (Report (scratchPath media)) media destination made (.ok ()) found) :
    ∃ earlier frames, found.workspace.invocations = earlier ++
      [⟨probeTool, FileProbe.arguments (scratchPath media)⟩,
        ⟨renderTool, frameArguments (scratchPath media) frames destination⟩] := by
  generalize hanswer : (.ok () : Except Failure Unit) = answer at search
  cases search with
  | uncopied copy => cases hanswer
  | unprobed copy count => cases hanswer
  | uncounted copy count unknown => cases hanswer
  | @counted info frames copied probed answer workspace copy count known take =>
    cases take with
    | missing => cases hanswer
    | refused => cases hanswer
    | failed => cases hanswer
    | succeeded =>
      cases count with
      | read run reading =>
        cases run with
        | succeeded =>
          refine ⟨copied.workspace.invocations, frames - 1, ?_⟩
          rw [Workspace.invocations_play, Workspace.invocations_play, List.append_assoc]
          rfl

/-- The clip with the name of a copy is the first to be handled. -/
def namesake : Workspace :=
  studio [reporting 10, writing "____take.mov" 2000, reporting 10, writing "first.jpg" 2001,
    reporting 1500, writing "__take.mov" 3000, writing "second.jpg" 3001]

/-- It does not suffice that copies are written and newer than earlier copies: here the frames are
those of a clip that has been handled under the path of the copy. -/
theorem counts_kept_clip :
    inWorkspace (Workspace.makeParent "second.jpg")
      (of namesake [takeLast "__take.mov" "first.jpg"]).probe =
        .ok () (of namesake [takeLast "__take.mov" "first.jpg"]).probe ∧
    (∀ look ∈ (of namesake [takeLast "__take.mov" "first.jpg",
      takeLast "take.mov" "second.jpg"]).looks,
        look.isCopy = true → look.modified.isSome = true) ∧
    ((of namesake [takeLast "__take.mov" "first.jpg",
      takeLast "take.mov" "second.jpg"]).looks.Pairwise fun later look =>
        later.isCopy = true → look.isCopy = true → Path.same look.path later.path = true →
          look.OlderThan later) ∧
    (extractFrame "take.mov" .last "second.jpg").answer
      (of namesake [takeLast "__take.mov" "first.jpg"]).probe = .ok () ∧
    ¬∃ found,
      (extractFrame "take.mov" .last "second.jpg").after
        (of namesake [takeLast "__take.mov" "first.jpg"]).probe =
          discardScratch (scratchPath "take.mov") found ∧
      Search (Report (scratchPath "take.mov")) "take.mov" "second.jpg"
        (of namesake [takeLast "__take.mov" "first.jpg"]).probe (.ok ()) found := by
  -- Two copies are made, and before the frame is taken it is the second copy that is made.
  have hlooks : (of namesake [takeLast "__take.mov" "first.jpg",
      takeLast "take.mov" "second.jpg"]).looks =
        [⟨"__take.mov", some 3000, true⟩, ⟨"take.mov", some 1000, false⟩,
          ⟨"____take.mov", some 2000, true⟩, ⟨"__take.mov", some 5000, false⟩] := by
    decide +kernel
  have hrun : (extractFrame "take.mov" .last "second.jpg").succeeds
      (of namesake [takeLast "__take.mov" "first.jpg"]).probe = true ∧
      (((extractFrame "take.mov" .last "second.jpg").after
        (of namesake [takeLast "__take.mov" "first.jpg"]).probe).workspace.invocations
          |>.dropLast.getLast?.map Invocation.tool) = some renderTool := by
    decide +kernel
  obtain ⟨_, _, hextract⟩ := Action.exists_eq_ok hrun.1
  refine ⟨makeParent_second _, ?_, ?_, Action.answer_of_ok hextract, ?_⟩
  · rw [hlooks]
    decide
  · rw [hlooks]
    decide
  · rintro ⟨found, hafter, hsearch⟩
    obtain ⟨earlier, frames, hinvocations⟩ := invocations_of_search hsearch
    obtain ⟨tree, hremove⟩ :=
      Workspace.exists_remove_eq found.workspace (scratchPath "take.mov")
    have hlast := hrun.2
    rw [hafter, discardScratch, hremove, hinvocations] at hlast
    have htool : probeTool = renderTool := by
      simpa using hlast
    exact absurd htool (by decide)

end History

end FileMaterializer

end EpisodeCut
