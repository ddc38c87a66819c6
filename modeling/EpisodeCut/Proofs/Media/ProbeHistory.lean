import EpisodeCut.Episode.Studio
import EpisodeCut.Proofs.Run.Keeps
import EpisodeCut.Proofs.Workspace.Advances
import EpisodeCut.Proofs.Workspace.Tools

/-!
# Histories of a probe

A probe is asked again and again while others change the files, also between the moment in which it
looks at the time of a file and the run of the tool (`FileProbe.call`). A history keeps the trees
that there have been and what every call has answered (`FileProbe.History`).

The kept answers do not show. If the tool reports what a file contains, and a file that is changed is
newer, then every answer is what the tool would report on a content that the file has had since the
call began; and the tool is only run again for a file that is newer than it was before every run
whose answer has been kept (`FileProbe.History.answers_up_to_date`). The invariant is that every kept
answer comes from a run before which the file was no newer than the answer says
(`FileProbe.History.Sound`). The probe of an episode makes such calls, so it answers what the tool
would report on the file as it is (`FileProbe.History.probe_reports`).
-/

set_option autoImplicit false

namespace EpisodeCut

/-! ## Kept answers -/

namespace ProbeCache

variable {cache : ProbeCache} {path twin : Path} {record : ProbeRecord}

theorem mem_of_find? (h : cache.find? path = some record) :
    ∃ twin, (twin, record) ∈ cache.records ∧ Path.same twin path = true := by
  obtain ⟨⟨twin, found⟩, hfind, rfl⟩ := Option.map_eq_some_iff.1 h
  have hsame := List.find?_some hfind
  exact ⟨twin, List.mem_of_find?_eq_some hfind, hsame⟩

theorem find?_congr (same : Path.same path twin = true) : cache.find? path = cache.find? twin := by
  have hcomponents : Path.components path = Path.components twin := by
    simpa [Path.same] using same
  simp only [find?, Path.same, hcomponents]

theorem find?_insert_of_same (same : Path.same path twin = true) :
    (cache.insert path record).find? twin = some record := by
  simp only [find?, insert, List.find?_cons, same]
  rfl

theorem find?_insert_of_not_same (differ : Path.same path twin = false) :
    (cache.insert path record).find? twin = cache.find? twin := by
  have hkept : (cache.records.filter (!·.1.same path)).find? (·.1.same twin) =
      cache.records.find? (·.1.same twin) := by
    rw [List.find?_filter]
    congr 1
    funext entry
    cases hentry : entry.1.same twin with
    | false => simp only [Bool.false_eq_true, and_false, decide_false]
    | true =>
      -- An entry for one of two different paths is none for the other.
      have hother : entry.1.same path = false := by
        rw [Bool.eq_false_iff]
        intro htwin
        simp only [Path.same, beq_iff_eq] at hentry htwin
        rw [Path.same, ← htwin, ← hentry, beq_self_eq_true] at differ
        cases differ
      rw [hother]
      rfl
  simp only [find?, insert, List.find?_cons, differ, hkept]

theorem mem_records_insert {entry : Path × ProbeRecord}
    (h : entry ∈ (cache.insert path record).records) :
    entry = (path, record) ∨ entry ∈ cache.records := by
  rcases List.mem_cons.1 h with rfl | h
  · exact .inl rfl
  · exact .inr (List.mem_filter.1 h).1

end ProbeCache

theorem ProbeRecord.isStale_eq_true {record : ProbeRecord} {now : Option Nat}
    (h : record.isStale now = true) :
    ∃ before time, record.modified = some before ∧ now = some time ∧ before < time := by
  obtain ⟨before, info⟩ := record
  cases before with
  | none => cases h
  | some before =>
    cases now with
    | none => cases h
    | some time => exact ⟨before, time, rfl, rfl, of_decide_eq_true h⟩

/-- Whether output says anything about a file does not depend on what the file is called. -/
theorem MediaInfo.ofOutput_rename {output : List UInt8} {path : Path} {info : MediaInfo}
    (h : ofOutput output path = .ok info) (twin : Path) : ofOutput output twin = .ok info := by
  rw [ofOutput] at h ⊢
  cases hread : ProbeReport.read output with
  | error complaint =>
    rw [hread] at h
    cases h
  | ok report =>
    rw [hread] at h
    simp only [ofReport, durationOf] at h ⊢
    cases hduration : report.format.bind FormatReport.duration with
    | none =>
      rw [hduration] at h
      cases h
    | some text =>
      rw [hduration] at h
      simp only at h ⊢
      cases htime : Timecode.ofText? text with
      | none =>
        rw [htime] at h
        cases h
      | some duration =>
        rw [htime] at h
        exact h

namespace FileProbe

/-! ## Calls -/

/-- What can be asked about a file. -/
inductive Question where
  /-- Everything that is known. -/
  | info
  | duration
  | videoSize
  deriving DecidableEq, Repr

/-- What is answered to a question. -/
def Question.Answer : Question → Type
  | .info => MediaInfo
  | .duration => Timecode
  | .videoSize => Option FrameSize

/-- The part of what is known that answers a question. -/
def Question.ofInfo : (question : Question) → MediaInfo → question.Answer
  | .info => id
  | .duration => MediaInfo.duration
  | .videoSize => MediaInfo.videoSize

/-- What a call does after it has looked at the file and at the kept answers. -/
inductive Verdict where
  | keep (info : MediaInfo)
  /-- Ask the tool about a file last modified at this time. -/
  | ask (modified : Option Nat)
  deriving DecidableEq, Repr

/-- Look at the file and at the kept answers. -/
def consult (path : Path) (probe : FileProbe) : Verdict :=
  let modified := probe.workspace.tree.modified? path
  match probe.cache.find? path with
  | some record => if record.isStale modified then .ask modified else .keep record.info
  | none => .ask modified

/-- Do what has been decided. -/
def pursue (path : Path) : Verdict → Action FileProbe MediaInfo
  | .keep info => pure info
  | .ask modified => FileProbe.ask path modified

theorem inspect_eq_pursue (path : Path) (probe : FileProbe) :
    inspect path probe = pursue path (consult path probe) probe := by
  rw [inspect, Action.get_bind, consult]
  cases probe.cache.find? path with
  | none => rfl
  | some record =>
    simp only
    split <;> rfl

/-- What others have made of the files and the tools. -/
structure Interference where
  tree : FileTree
  tools : List (String × ToolState)

/-- The probe after an interference. -/
def disturb (interference : Interference) (probe : FileProbe) : FileProbe :=
  { probe with
    workspace :=
      { probe.workspace with tree := interference.tree, tools := interference.tools } }

/-- A call into which others interfere after it has looked at the file. -/
def call (question : Question) (path : Path) (meanwhile : Interference) :
    Action FileProbe question.Answer := do
  let probe ← get
  modify (disturb meanwhile)
  let info ← pursue path (consult path probe)
  pure (question.ofInfo info)

theorem call_eq (question : Question) (path : Path) (meanwhile : Interference)
    (probe : FileProbe) :
    call question path meanwhile probe =
      (pursue path (consult path probe) >>= fun info => pure (question.ofInfo info))
        (disturb meanwhile probe) :=
  rfl

/-- Where nobody interferes, a call is an inspection. -/
theorem call_undisturbed (question : Question) (path : Path) (probe : FileProbe) :
    call question path ⟨probe.workspace.tree, probe.workspace.tools⟩ probe =
      (inspect path >>= fun info => pure (question.ofInfo info)) probe := by
  have hsame : disturb ⟨probe.workspace.tree, probe.workspace.tools⟩ probe = probe := rfl
  rw [call_eq, hsame]
  simp only [bind, EStateM.bind, inspect_eq_pursue]

theorem asProbe_eq_call (question : Question) (path : Path) (bench : Bench) :
    Bench.asProbe (inspect path >>= fun info => pure (question.ofInfo info)) bench =
      Bench.asProbe (call question path ⟨bench.workspace.tree, bench.workspace.tools⟩) bench := by
  have hcall := call_undisturbed question path ⟨bench.workspace, bench.probed⟩
  simp only [Bench.asProbe, Action.within]
  rw [hcall]

/-- The probe of an episode makes calls. -/
theorem duration_eq_call (path : Path) (bench : Bench) :
    Bench.probe.duration path bench =
      Bench.asProbe (call .duration path ⟨bench.workspace.tree, bench.workspace.tools⟩) bench :=
  asProbe_eq_call .duration path bench

theorem videoSize_eq_call (path : Path) (bench : Bench) :
    Bench.probe.videoSize path bench =
      Bench.asProbe (call .videoSize path ⟨bench.workspace.tree, bench.workspace.tools⟩)
        bench :=
  asProbe_eq_call .videoSize path bench

/-- The tool is asked successfully, or its answer is not kept. -/
theorem ask_cases (path : Path) (modified : Option Nat) (probe : FileProbe) :
    (∃ info, (probe.workspace.reply ⟨probeTool, arguments path⟩).exit = 0 ∧
      MediaInfo.ofOutput (probe.workspace.reply ⟨probeTool, arguments path⟩).stdout path =
        .ok info ∧
      ask path modified probe = .ok info
        ⟨probe.workspace.play ⟨probeTool, arguments path⟩,
          probe.cache.countRun.insert path ⟨modified, info⟩⟩) ∨
    ∃ failure later, ask path modified probe = .error failure later ∧
      later.cache.records = probe.cache.records ∧
      later.workspace.script = probe.workspace.script := by
  rcases Workspace.capture_cases probeTool "probe" path (arguments path) probe.workspace with
    ⟨hexit, hcapture⟩ | ⟨failure, later, hcapture, hlater⟩
  · have houtput : inWorkspace (Workspace.capture probeTool "probe" path (arguments path)) probe =
        .ok (probe.workspace.reply ⟨probeTool, arguments path⟩).stdout
          { probe with workspace := probe.workspace.play ⟨probeTool, arguments path⟩ } := by
      simp only [inWorkspace, Action.within, hcapture]
    have hask : ask path modified probe = _ := Action.bind_eq_of_ok houtput
    rw [Action.modify_bind] at hask
    rw [hask]
    cases hinfo :
      MediaInfo.ofOutput (probe.workspace.reply ⟨probeTool, arguments path⟩).stdout path with
    | ok info => exact .inl ⟨info, hexit, rfl, rfl⟩
    | error failure =>
      refine .inr ⟨failure, _, Action.bind_eq_of_error rfl, rfl, ?_⟩
      exact Workspace.script_play _ _
  · refine .inr ⟨failure, { probe with workspace := later }, Action.bind_eq_of_error ?_, rfl, ?_⟩
    · simp only [inWorkspace, Action.within, hcapture]
    · rcases hlater with rfl | rfl
      · rfl
      · exact Workspace.script_play _ _

/-- How a call ends that asks the tool. -/
inductive Asked (question : Question) (path : Path) (meanwhile : Interference)
    (probe : FileProbe) : Prop where
  /-- There is a new answer, which is kept with the time that the call has looked at. -/
  | renewed (info : MediaInfo)
    (exit : ((disturb meanwhile probe).workspace.reply ⟨probeTool, arguments path⟩).exit = 0)
    (report : MediaInfo.ofOutput
      ((disturb meanwhile probe).workspace.reply ⟨probeTool, arguments path⟩).stdout path = .ok info)
    (result : call question path meanwhile probe = .ok (question.ofInfo info)
      ⟨(disturb meanwhile probe).workspace.play ⟨probeTool, arguments path⟩,
        probe.cache.countRun.insert path ⟨probe.workspace.tree.modified? path, info⟩⟩)
  /-- The earlier answer stays. -/
  | failed (failure : Failure) (later : FileProbe)
    (result : call question path meanwhile probe = .error failure later)
    (records : later.cache.records = probe.cache.records)
    (script : later.workspace.script = probe.workspace.script)

theorem asked_of_consult {path : Path} {probe : FileProbe}
    (h : consult path probe = .ask (probe.workspace.tree.modified? path)) (question : Question)
    (meanwhile : Interference) : Asked question path meanwhile probe := by
  have hcall := call_eq question path meanwhile probe
  rw [h] at hcall
  rcases ask_cases path (probe.workspace.tree.modified? path) (disturb meanwhile probe) with
    ⟨info, hexit, hinfo, hask⟩ | ⟨failure, later, hask, hrecords, hscript⟩
  · exact .renewed info hexit hinfo (hcall.trans (Action.bind_eq_of_ok hask))
  · exact .failed failure later (hcall.trans (Action.bind_eq_of_error hask)) hrecords hscript

/-- A call keeps to the answer that it finds, or, if that is out of date or there is none, it asks the
tool. -/
theorem call_cases (question : Question) (path : Path) (meanwhile : Interference)
    (probe : FileProbe) :
    (∃ record, probe.cache.find? path = some record ∧
      record.isStale (probe.workspace.tree.modified? path) = false ∧
      call question path meanwhile probe =
        .ok (question.ofInfo record.info) (disturb meanwhile probe)) ∨
    (∀ record, probe.cache.find? path = some record →
      record.isStale (probe.workspace.tree.modified? path) = true) ∧
      Asked question path meanwhile probe := by
  cases hfind : probe.cache.find? path with
  | none =>
    refine .inr ⟨nofun, asked_of_consult ?_ question meanwhile⟩
    simp only [consult, hfind]
  | some record =>
    cases hstale : record.isStale (probe.workspace.tree.modified? path) with
    | true =>
      refine .inr ⟨?_, asked_of_consult ?_ question meanwhile⟩
      · rintro other ⟨⟩
        exact hstale
      · simp only [consult, hfind, hstale, if_true]
    | false =>
      refine .inl ⟨record, rfl, hstale, ?_⟩
      rw [call_eq]
      simp only [consult, hfind, hstale]
      rfl

/-! ## Histories -/

/-- Something that happens to the probe or to the files. -/
inductive Event where
  | interfere (interference : Interference)
  | call (question : Question) (path : Path) (meanwhile : Interference)

/-- A call that has been made. -/
structure Call where
  question : Question
  path : Path
  /-- The tree when the call looked at the file. -/
  began : FileTree
  /-- The tree when the tool was run, or would have been run. -/
  ran : FileTree
  /-- The tools that were started. -/
  started : List Invocation
  answer : Except Failure question.Answer

/-- The probe, all trees and all calls so far, both with the last one in front. -/
structure History where
  probe : FileProbe
  trees : List FileTree
  calls : List Call

namespace History

/-- Nothing has happened yet. -/
def start (workspace : Workspace) : History :=
  ⟨⟨workspace, .empty⟩, [workspace.tree], []⟩

/-- One more event. -/
def step (history : History) : Event → History
  | .interfere interference =>
    { history with
      probe := disturb interference history.probe
      trees := interference.tree :: history.trees }
  | .call question path meanwhile =>
    let later := (call question path meanwhile).after history.probe
    { probe := later
      trees := later.workspace.tree :: meanwhile.tree :: history.trees
      calls :=
        ⟨question, path, history.probe.workspace.tree, meanwhile.tree,
          later.workspace.invocations.drop history.probe.workspace.invocations.length,
          (call question path meanwhile).answer history.probe⟩ :: history.calls }

/-- The history of events that begins in a workspace. -/
def of (workspace : Workspace) (events : List Event) : History :=
  events.foldl step (start workspace)

end History

/-- The file that is asked about exists when the call begins. -/
def Call.FindsFile (call : Call) : Prop :=
  ∃ content, call.began.read call.path = .ok content

instance (call : Call) : Decidable call.FindsFile :=
  match h : call.began.read call.path with
  | .ok content => isTrue ⟨content, h⟩
  | .error _ => isFalse fun ⟨content, hread⟩ => by
    rw [h] at hread
    cases hread

/-- An answer is what the tool would report on a content that the file has had since the call
began. -/
def Call.UpToDate (output : List UInt8 → List UInt8) (call : Call) : Prop :=
  ∀ answer, call.answer = .ok answer → ∃ tree ∈ [call.began, call.ran], ∃ content info,
    tree.read call.path = .ok content ∧
    MediaInfo.ofOutput (output content) call.path = .ok info ∧
    answer = call.question.ofInfo info

/-- The call has got its answer from a run of the tool. -/
def Call.Renewed (call : Call) : Prop :=
  call.started ≠ [] ∧ ∃ answer, call.answer = .ok answer

/-- The file was older when it was looked at in the first of two calls. -/
def Call.OlderThan (call later : Call) : Prop :=
  ∃ before now, call.began.modified? call.path = some before ∧
    later.began.modified? later.path = some now ∧ before < now

/-- If a run of the tool succeeds, its output depends on the content of the file alone. -/
def Reports (script : Script) (output : List UInt8 → List UInt8) : Prop :=
  ∀ number path tree, (script number ⟨probeTool, arguments path⟩ tree).exit = 0 →
    ∃ content, tree.read path = .ok content ∧
      (script number ⟨probeTool, arguments path⟩ tree).stdout = output content

/-- A kept answer comes from a run on one of the trees, and before it the file was looked at. -/
def Backed (output : List UInt8 → List UInt8) (trees : List FileTree) (path : Path)
    (record : ProbeRecord) : Prop :=
  ∃ looked ∈ trees, ∃ ran ∈ trees, looked.Advances ran ∧
    (∃ location modified content, looked.find path = .ok (location, .file modified content) ∧
      record.modified = some modified) ∧
    ∃ content, ran.read path = .ok content ∧
      MediaInfo.ofOutput (output content) path = .ok record.info

theorem Backed.mono {output : List UInt8 → List UInt8} {trees more : List FileTree} {path : Path}
    {record : ProbeRecord} (h : Backed output trees path record) (hmore : trees ⊆ more) :
    Backed output more path record := by
  obtain ⟨looked, hlooked, ran, hran, h⟩ := h
  exact ⟨looked, hmore hlooked, ran, hmore hran, h⟩

namespace History

variable {output : List UInt8 → List UInt8} {history : History}

/-- What holds of every history. -/
structure Sound (output : List UInt8 → List UInt8) (history : History) : Prop where
  reports : Reports history.probe.workspace.script output
  current : ∃ earlier, history.trees = history.probe.workspace.tree :: earlier
  backed : ∀ entry ∈ history.probe.cache.records, Backed output history.trees entry.1 entry.2
  /-- What is kept for a path is no older than any answer that the tool has given. -/
  newest : ∀ call ∈ history.calls, call.Renewed → ∃ record time kept,
    history.probe.cache.find? call.path = some record ∧
    call.began.modified? call.path = some time ∧ record.modified = some kept ∧ time ≤ kept
  answers : ∀ call ∈ history.calls, call.UpToDate output
  renewals : history.calls.Pairwise fun later call =>
    later.started ≠ [] → call.Renewed → Path.same call.path later.path = true →
      call.OlderThan later

/-- The trees come one after another, and calls are about files that exist. -/
structure Orderly (history : History) : Prop where
  advances : history.trees.Pairwise fun later tree => tree.Advances later
  findsFile : ∀ call ∈ history.calls, call.FindsFile

instance (history : History) : Decidable history.Orderly :=
  decidable_of_iff ((history.trees.Pairwise fun later tree => tree.Advances later) ∧
      ∀ call ∈ history.calls, call.FindsFile)
    ⟨fun h => ⟨h.1, h.2⟩, fun h => ⟨h.advances, h.findsFile⟩⟩

/-- In an orderly history an answer that is not out of date says what the tool would report. -/
theorem Sound.answer_of_fresh (sound : history.Sound output) (orderly : history.Orderly)
    {path : Path} {record : ProbeRecord} {location : Location} {modified : Nat}
    {content : List UInt8} (hfind : history.probe.cache.find? path = some record)
    (hfile : history.probe.workspace.tree.find path = .ok (location, .file modified content))
    (fresh : record.isStale (history.probe.workspace.tree.modified? path) = false) :
    MediaInfo.ofOutput (output content) path = .ok record.info := by
  obtain ⟨twin, hmem, hsame⟩ := ProbeCache.mem_of_find? hfind
  obtain ⟨looked, hlooked, ran, hran, hadvances, ⟨_, before, _, hbefore, hmodified⟩,
    reported, hread, hinfo⟩ := sound.backed (twin, record) hmem
  obtain ⟨place, time, hrun⟩ := FileTree.find_of_read hread
  -- The file has not become newer since it was looked at, so neither between that and the run.
  have hfirst : before ≤ time ∧ _ := hadvances.find (Path.same_self twin) hbefore hrun
  have hnow : ran.Advances history.probe.workspace.tree := by
    obtain ⟨earlier, htrees⟩ := sound.current
    have hpairs := orderly.advances
    rw [htrees] at hran hpairs
    rcases List.mem_cons.1 hran with rfl | hran
    · exact .rfl
    · exact List.rel_of_pairwise_cons hpairs hran
  have hsecond : time ≤ modified ∧ (time = modified → reported = content) :=
    hnow.find hsame hrun hfile
  have hkept : modified ≤ before := by
    have hrecord : record.modified = some before := hmodified
    rw [FileTree.modified?_of_find hfile] at fresh
    simp only [ProbeRecord.isStale, hrecord] at fresh
    exact Nat.le_of_not_lt (of_decide_eq_false fresh)
  have hcontent : reported = content :=
    hsecond.2 (Nat.le_antisymm hsecond.1 (Nat.le_trans hkept hfirst.1))
  rw [← hcontent]
  exact MediaInfo.ofOutput_rename hinfo path

/-- What is kept for a path is out of date only if the file is newer than it was at any call that got
its answer from the tool. -/
theorem Sound.older_of_stale (sound : history.Sound output) {path : Path} {call : Call}
    (hstale : ∀ record, history.probe.cache.find? path = some record →
      record.isStale (history.probe.workspace.tree.modified? path) = true)
    (hcall : call ∈ history.calls) (renewed : call.Renewed)
    (same : Path.same call.path path = true) :
    ∃ before now, call.began.modified? call.path = some before ∧
      history.probe.workspace.tree.modified? path = some now ∧ before < now := by
  obtain ⟨record, time, kept, hfind, htime, hkept, hle⟩ := sound.newest call hcall renewed
  rw [ProbeCache.find?_congr same] at hfind
  obtain ⟨before, now, hbefore, hnow, hlt⟩ := ProbeRecord.isStale_eq_true (hstale record hfind)
  have heq : kept = before := by
    rw [hkept] at hbefore
    exact Option.some.inj hbefore
  exact ⟨time, now, htime, hnow, by omega⟩

/-- A call that gets no answer from the tool leaves what is kept. -/
theorem Sound.push (sound : history.Sound output) {probe : FileProbe} {ran : FileTree} {call : Call}
    (hscript : probe.workspace.script = history.probe.workspace.script)
    (hrecords : probe.cache.records = history.probe.cache.records) (hold : ¬call.Renewed)
    (upToDate : call.UpToDate output)
    (hrenewals : ∀ other ∈ history.calls, call.started ≠ [] → other.Renewed →
      Path.same other.path call.path = true → other.OlderThan call) :
    Sound output ⟨probe, probe.workspace.tree :: ran :: history.trees, call :: history.calls⟩ := by
  have hfind : probe.cache.find? = history.probe.cache.find? := by
    funext path
    simp only [ProbeCache.find?, hrecords]
  refine ⟨?_, ⟨_, rfl⟩, ?_, ?_, ?_, ?_⟩
  · rw [hscript]
    exact sound.reports
  · intro entry hentry
    rw [hrecords] at hentry
    exact (sound.backed entry hentry).mono fun tree htree =>
      List.mem_cons_of_mem _ (List.mem_cons_of_mem _ htree)
  · -- The new call needs no answer to be kept, since it got none from the tool.
    intro other hother renewed
    rcases List.mem_cons.1 hother with rfl | hother
    · exact absurd renewed hold
    · simp only [hfind]
      exact sound.newest other hother renewed
  · intro other hother
    rcases List.mem_cons.1 hother with rfl | hother
    · exact upToDate
    · exact sound.answers other hother
  · exact List.pairwise_cons.2 ⟨hrenewals, sound.renewals⟩

/-- A call that gets its answer from the tool leaves this answer to be kept. -/
theorem Sound.renew (sound : history.Sound output) {probe : FileProbe} {ran : FileTree} {call : Call}
    {info : MediaInfo} {location : Location} {modified : Nat} {old content : List UInt8}
    (hscript : probe.workspace.script = history.probe.workspace.script)
    (hcache : probe.cache =
      history.probe.cache.countRun.insert call.path ⟨some modified, info⟩)
    (hbegan : call.began = history.probe.workspace.tree) (hran : call.ran = ran)
    (hfile : call.began.find call.path = .ok (location, .file modified old))
    (hadvances : call.began.Advances ran) (hread : ran.read call.path = .ok content)
    (hinfo : MediaInfo.ofOutput (output content) call.path = .ok info)
    (hanswer : call.answer = .ok (call.question.ofInfo info))
    (hrenewals : ∀ other ∈ history.calls, other.Renewed →
      Path.same other.path call.path = true → other.OlderThan call) :
    Sound output ⟨probe, probe.workspace.tree :: ran :: history.trees, call :: history.calls⟩ := by
  have hmodified : call.began.modified? call.path = some modified :=
    FileTree.modified?_of_find hfile
  have hkept (twin : Path) (hsame : Path.same call.path twin = true) :
      probe.cache.find? twin = some ⟨some modified, info⟩ := by
    rw [hcache]
    exact ProbeCache.find?_insert_of_same hsame
  refine ⟨?_, ⟨_, rfl⟩, ?_, ?_, ?_, ?_⟩
  · rw [hscript]
    exact sound.reports
  · intro entry hentry
    have hmore : history.trees ⊆ probe.workspace.tree :: ran :: history.trees :=
      fun tree htree => List.mem_cons_of_mem _ (List.mem_cons_of_mem _ htree)
    rw [hcache] at hentry
    rcases ProbeCache.mem_records_insert hentry with rfl | hentry
    · -- The file was looked at in the current tree, and the tool was run on the next one.
      obtain ⟨earlier, htrees⟩ := sound.current
      have hlooked : call.began ∈ history.trees := by
        rw [hbegan, htrees]
        exact List.mem_cons_self
      exact ⟨call.began, hmore hlooked, ran, List.mem_cons_of_mem _ List.mem_cons_self, hadvances,
        ⟨location, modified, old, hfile, rfl⟩, content, hread, hinfo⟩
    · exact (sound.backed entry hentry).mono hmore
  · intro other hother renewed
    rcases List.mem_cons.1 hother with rfl | hother
    · exact ⟨_, modified, modified, hkept other.path (Path.same_self other.path), hmodified, rfl,
        Nat.le_refl modified⟩
    · cases hsame : Path.same call.path other.path with
      | true =>
        -- The new answer is kept in place of one that was no newer than the file now is.
        rw [Path.same_comm] at hsame
        obtain ⟨before, now, hbefore, hnow, hlt⟩ := hrenewals other hother renewed hsame
        rw [Path.same_comm] at hsame
        have heq : modified = now := by
          rw [hmodified] at hnow
          exact Option.some.inj hnow
        exact ⟨_, before, modified, hkept other.path hsame, hbefore, rfl, by omega⟩
      | false =>
        have hfind : probe.cache.find? other.path = history.probe.cache.find? other.path := by
          rw [hcache]
          exact ProbeCache.find?_insert_of_not_same hsame
        rw [hfind]
        exact sound.newest other hother renewed
  · intro other hother
    rcases List.mem_cons.1 hother with rfl | hother
    · intro answer hanswer'
      rw [hanswer] at hanswer'
      cases hanswer'
      refine ⟨ran, ?_, content, info, hread, hinfo, rfl⟩
      rw [hran]
      exact List.mem_cons_of_mem _ List.mem_cons_self
    · exact sound.answers other hother
  · exact List.pairwise_cons.2 ⟨fun other hother _ => hrenewals other hother, sound.renewals⟩

theorem Orderly.of_step {event : Event} (orderly : (history.step event).Orderly) :
    history.Orderly := by
  obtain ⟨hadvances, hfiles⟩ := orderly
  cases event with
  | interfere interference => exact ⟨(List.pairwise_cons.1 hadvances).2, hfiles⟩
  | call question path meanwhile =>
    exact ⟨(List.pairwise_cons.1 (List.pairwise_cons.1 hadvances).2).2,
      fun call hcall => hfiles call (List.mem_cons_of_mem _ hcall)⟩

/-- Every event preserves the invariant. -/
theorem Sound.step (sound : history.Sound output) {event : Event}
    (orderly : (history.step event).Orderly) : (history.step event).Sound output := by
  cases event with
  | interfere interference =>
    refine ⟨sound.reports, ⟨history.trees, rfl⟩, ?_, sound.newest, sound.answers, sound.renewals⟩
    exact fun entry hentry => (sound.backed entry hentry).mono (List.subset_cons_self _ _)
  | call question path meanwhile =>
    have before := orderly.of_step
    obtain ⟨hadvances, hfiles⟩ := orderly
    obtain ⟨old, hold⟩ := hfiles _ List.mem_cons_self
    obtain ⟨location, modified, hfile⟩ : ∃ location modified,
        history.probe.workspace.tree.find path = .ok (location, .file modified old) :=
      FileTree.find_of_read hold
    have hmodified : history.probe.workspace.tree.modified? path = some modified :=
      FileTree.modified?_of_find hfile
    rcases call_cases question path meanwhile history.probe with
      ⟨record, hfind, hfresh, hcall⟩ | ⟨hstale, hasked⟩
    · -- The answer is kept, and no tool is started.
      have hinfo := sound.answer_of_fresh before hfind hfile hfresh
      have hstarted : (disturb meanwhile history.probe).workspace.invocations.drop
          history.probe.workspace.invocations.length = [] := List.drop_length
      simp only [History.step, Action.after_of_ok hcall, Action.answer_of_ok hcall]
      refine sound.push rfl rfl ?_ ?_ ?_
      · exact fun renewed => renewed.1 hstarted
      · intro answer hanswer
        cases hanswer
        exact ⟨_, List.mem_cons_self, old, record.info, hold, hinfo, rfl⟩
      · exact fun other _ hsome => absurd hstarted hsome
    · have hrenewals (other) (hother : other ∈ history.calls) (renewed : other.Renewed)
          (hsame : Path.same other.path path = true) :=
        sound.older_of_stale hstale hother renewed hsame
      cases hasked with
      | renewed info hexit hinfo hcall =>
        -- The tool has reported on what it found, which may be newer than what the call looked at.
        obtain ⟨content, hread, hstdout⟩ := sound.reports _ path meanwhile.tree hexit
        have hreport : MediaInfo.ofOutput (output content) path = .ok info := by
          rw [← hstdout]
          exact hinfo
        have hran : history.probe.workspace.tree.Advances meanwhile.tree := by
          obtain ⟨earlier, htrees⟩ := sound.current
          rw [History.step, htrees] at hadvances
          exact List.rel_of_pairwise_cons (List.pairwise_cons.1 hadvances).2 List.mem_cons_self
        simp only [History.step, Action.after_of_ok hcall, Action.answer_of_ok hcall]
        refine sound.renew (Workspace.script_play _ _) ?_ rfl rfl hfile hran hread hreport rfl
          hrenewals
        rw [hmodified]
      | failed failure later hcall hrecords hscript =>
        -- There is no answer that would have to be true, and none to be kept.
        simp only [History.step, Action.after_of_error hcall, Action.answer_of_error hcall]
        refine sound.push hscript hrecords ?_ ?_ fun other hother _ => hrenewals other hother
        · rintro ⟨-, answer, hanswer⟩
          cases hanswer
        · intro answer hanswer
          cases hanswer

theorem sound_start {workspace : Workspace} (reports : Reports workspace.script output) :
    (start workspace).Sound output :=
  ⟨reports, ⟨[], rfl⟩, nofun, nofun, nofun, .nil⟩

theorem Orderly.of_foldl {events : List Event}
    (orderly : (events.foldl History.step history).Orderly) : history.Orderly := by
  induction events generalizing history with
  | nil => exact orderly
  | cons event rest ih => exact (ih orderly).of_step

/-- The invariant holds however many events there are. -/
theorem Sound.foldl (sound : history.Sound output) {events : List Event}
    (orderly : (events.foldl History.step history).Orderly) :
    (events.foldl History.step history).Sound output := by
  induction events generalizing history with
  | nil => exact sound
  | cons event rest ih =>
    have hnext : (history.step event).Orderly := Orderly.of_foldl orderly
    exact ih (sound.step hnext) orderly

/-- Whatever happens to the files and the tools, every answer is what the tool would report on a
content that the file has had since the call began; and where a call has got its answer from the tool,
later calls for the same path start it again only when the file is newer. -/
theorem answers_up_to_date {workspace : Workspace} {events : List Event}
    (reports : Reports workspace.script output) (orderly : (of workspace events).Orderly) :
    (∀ call ∈ (of workspace events).calls, call.UpToDate output) ∧
      (of workspace events).calls.Pairwise fun later call => later.started ≠ [] →
        call.Renewed → Path.same call.path later.path = true → call.OlderThan later :=
  have sound := (sound_start reports).foldl orderly
  ⟨sound.answers, sound.renewals⟩

/-- A call without interference answers what the tool would report on the file as it is. -/
theorem Sound.report_of_call (sound : history.Sound output) (orderly : history.Orderly)
    {question : Question} {path : Path} {content : List UInt8} {answer : question.Answer}
    (hread : history.probe.workspace.tree.read path = .ok content)
    (h : (call question path ⟨history.probe.workspace.tree, history.probe.workspace.tools⟩).answer
      history.probe = .ok answer) :
    ∃ info, MediaInfo.ofOutput (output content) path = .ok info ∧
      answer = question.ofInfo info := by
  rcases call_cases question path ⟨history.probe.workspace.tree, history.probe.workspace.tools⟩
    history.probe with ⟨record, hfind, hfresh, hcall⟩ | ⟨-, hasked⟩
  · -- The answer was kept, and the file is no newer.
    obtain ⟨location, modified, hfile⟩ := FileTree.find_of_read hread
    rw [Action.answer_of_ok hcall] at h
    cases h
    exact ⟨record.info, sound.answer_of_fresh orderly hfind hfile hfresh, rfl⟩
  · cases hasked with
    | renewed info hexit hinfo hcall =>
      obtain ⟨found, hfound, hstdout⟩ := sound.reports _ path history.probe.workspace.tree hexit
      have hcontent : found = content := by
        rw [hread] at hfound
        exact (Except.ok.inj hfound).symm
      rw [Action.answer_of_ok hcall] at h
      cases h
      refine ⟨info, ?_, rfl⟩
      rw [← hcontent, ← hstdout]
      exact hinfo
    | failed failure later hcall =>
      rw [Action.answer_of_error hcall] at h
      cases h

/-- The probe of an episode, asked next, answers what the tool would report on the file as it is. -/
theorem probe_reports {workspace : Workspace} {events : List Event} {bench : Bench} {path : Path}
    {content : List UInt8} (reports : Reports workspace.script output)
    (orderly : (of workspace events).Orderly)
    (hbench : (of workspace events).probe = ⟨bench.workspace, bench.probed⟩)
    (hread : bench.workspace.tree.read path = .ok content) :
    (∀ duration, (Bench.probe.duration path).answer bench = .ok duration →
      ∃ info, MediaInfo.ofOutput (output content) path = .ok info ∧ duration = info.duration) ∧
    ∀ size, (Bench.probe.videoSize path).answer bench = .ok size →
      ∃ info, MediaInfo.ofOutput (output content) path = .ok info ∧ size = info.videoSize := by
  have sound : (of workspace events).Sound output := (sound_start reports).foldl orderly
  -- Both questions are calls with which nobody interferes.
  have hanswer (question : Question) (answer : question.Answer)
      (h : (Bench.asProbe (call question path
        ⟨bench.workspace.tree, bench.workspace.tools⟩)).answer bench = .ok answer) :
      ∃ info, MediaInfo.ofOutput (output content) path = .ok info ∧
        answer = question.ofInfo info := by
    rw [Bench.asProbe, Action.answer_within, ← hbench] at h
    apply sound.report_of_call orderly
    · rw [hbench]
      exact hread
    · simp only [hbench] at h ⊢
      exact h
  constructor
  · intro duration h
    apply hanswer .duration duration
    rw [Action.answer, ← duration_eq_call]
    exact h
  · intro size h
    apply hanswer .videoSize size
    rw [Action.answer, ← videoSize_eq_call]
    exact h

/-! ## A recording that grows -/

/-- What the tool reports on a file that lasts a second for each of its bytes. -/
def secondPerByte (content : List UInt8) : List UInt8 :=
  ("\x7b\x22format\x22: \x7b\x22duration\x22: \x22" ++ toString content.length ++
    "\x22\x7d\x7d").toUTF8.toList

/-- A tool that reports on what it can read. -/
def reporting (output : List UInt8 → List UInt8) : Script := fun _ invocation tree =>
  match tree.read (invocation.arguments.getLastD "") with
  | .ok content => ⟨0, output content, "", [], []⟩
  | .error _ => ⟨1, [], "no such file", [], []⟩

theorem reports_reporting (output : List UInt8 → List UInt8) :
    Reports (reporting output) output := by
  intro number path tree hexit
  have harguments : (FileProbe.arguments path).getLastD "" = path := rfl
  simp only [reporting, harguments] at hexit ⊢
  cases hread : tree.read path with
  | ok content => exact ⟨content, rfl, rfl⟩
  | error cause =>
    rw [hread] at hexit
    cases hexit

/-- A directory with one recording. -/
def recorded (modified : Nat) (content : List UInt8) : FileTree :=
  (FileTree.bare ["show"]).put ["show", "take.wav"] (.file modified content)

/-- The tool at work, and out of order. -/
def probing (state : ToolState) (tree : FileTree) : Interference := ⟨tree, [(probeTool, state)]⟩

def recordingStudio : Workspace where
  tree := recorded 3 [1]
  now := 0
  tools := [(probeTool, .ready)]
  script := reporting secondPerByte
  invocations := []
  console := []
  complaints := ""

/-- The recording grows while it is probed for the first time; later it is replaced while the tool is
out of order. -/
def takes : List Event :=
  [.call .info "./take.wav" (probing .ready (recorded 5 [1, 2])),
   .call .duration "./take.wav" (probing .ready (recorded 5 [1, 2])),
   .call .videoSize ".//take.wav" (probing .ready (recorded 5 [1, 2])),
   .interfere (probing .ready (.bare ["show"])),
   .interfere (probing .ready (recorded 8 [1, 2, 3])),
   .call .duration "./take.wav" (probing .broken (recorded 8 [1, 2, 3])),
   .call .duration "./take.wav" (probing .ready (recorded 8 [1, 2, 3])),
   .call .videoSize "./take.wav" (probing .missing (recorded 9 [4]))]

theorem answers_up_to_date_takes :
    Reports recordingStudio.script secondPerByte ∧ (of recordingStudio takes).Orderly ∧
      (∀ call ∈ (of recordingStudio takes).calls, call.UpToDate secondPerByte) ∧
      (of recordingStudio takes).calls.Pairwise fun later call => later.started ≠ [] →
        call.Renewed → Path.same call.path later.path = true → call.OlderThan later := by
  have hreports : Reports recordingStudio.script secondPerByte := reports_reporting secondPerByte
  have horderly : (of recordingStudio takes).Orderly := by
    decide +kernel
  exact ⟨hreports, horderly, answers_up_to_date hreports horderly⟩

/-- The tool is started by three of the calls. -/
example : (of recordingStudio takes).calls.reverse.map (·.started.length) = [1, 1, 0, 0, 1, 0] := by
  decide +kernel

end History

end FileProbe

end EpisodeCut
