import EpisodeCut.Workspace.Basic

/-!
# Runs of tools

A tool that cannot be found or started leaves the workspace as it is. A tool that is started is noted
among the invocations, and then the script decides what it does (`Workspace.play`). Beyond that only
the tree is changed (`Workspace.exists_apply_eq`). How a tool that has to succeed can end is listed in
`Workspace.ToolRun`.
-/

set_option autoImplicit false

namespace EpisodeCut

namespace Workspace

/-! ## Changes of the tree -/

theorem exists_write_eq (workspace : Workspace) (path : Path) (modified : Nat)
    (content : List UInt8) :
    ∃ tree, workspace.write path modified content = { workspace with tree := tree } := by
  rw [write]
  split
  · next tree _ => exact ⟨tree, rfl⟩
  · exact ⟨workspace.tree, rfl⟩

theorem exists_remove_eq (workspace : Workspace) (path : Path) :
    ∃ tree, workspace.remove path = { workspace with tree := tree } := by
  rw [remove]
  split
  · next tree _ => exact ⟨tree, rfl⟩
  · exact ⟨workspace.tree, rfl⟩

/-- Steps that change nothing but the tree do so together. -/
theorem exists_foldl_eq {α : Type} {step : Workspace → α → Workspace}
    (h : ∀ workspace a, ∃ tree, step workspace a = { workspace with tree := tree })
    (steps : List α) (workspace : Workspace) :
    ∃ tree, steps.foldl step workspace = { workspace with tree := tree } := by
  induction steps generalizing workspace with
  | nil => exact ⟨workspace.tree, rfl⟩
  | cons a rest ih =>
    obtain ⟨tree, hstep⟩ := h workspace a
    obtain ⟨last, hrest⟩ := ih { workspace with tree := tree }
    refine ⟨last, ?_⟩
    rw [List.foldl_cons, hstep, hrest]

/-- A reply changes nothing but the tree. -/
theorem exists_apply_eq (workspace : Workspace) (reply : Reply) :
    ∃ tree, workspace.apply reply = { workspace with tree := tree } := by
  obtain ⟨written, hwrites⟩ := exists_foldl_eq
    (fun workspace (file : WrittenFile) =>
      exists_write_eq workspace file.path file.modified file.content) reply.writes workspace
  obtain ⟨tree, hremoves⟩ := exists_foldl_eq exists_remove_eq reply.removes
    { workspace with tree := written }
  refine ⟨tree, ?_⟩
  simp only [apply, hwrites, hremoves]

/-! ## Invocations -/

/-- What a tool that is started now does. -/
def reply (workspace : Workspace) (invocation : Invocation) : Reply :=
  workspace.script workspace.invocations.length invocation workspace.tree

/-- The workspace once a tool that is started now has ended. -/
def play (workspace : Workspace) (invocation : Invocation) : Workspace :=
  Workspace.apply
    { workspace with
      invocations := workspace.invocations ++ [invocation], now := workspace.now + 1 }
    (workspace.reply invocation)

theorem exists_play_eq (workspace : Workspace) (invocation : Invocation) :
    ∃ tree, workspace.play invocation =
      { workspace with
        tree := tree, invocations := workspace.invocations ++ [invocation],
        now := workspace.now + 1 } := by
  obtain ⟨tree, h⟩ := exists_apply_eq
    { workspace with
      invocations := workspace.invocations ++ [invocation], now := workspace.now + 1 }
    (workspace.reply invocation)
  exact ⟨tree, h⟩

@[simp] theorem script_play (workspace : Workspace) (invocation : Invocation) :
    (workspace.play invocation).script = workspace.script := by
  obtain ⟨tree, h⟩ := exists_play_eq workspace invocation
  rw [h]

@[simp] theorem invocations_play (workspace : Workspace) (invocation : Invocation) :
    (workspace.play invocation).invocations = workspace.invocations ++ [invocation] := by
  obtain ⟨tree, h⟩ := exists_play_eq workspace invocation
  rw [h]

variable (tool operation : String) (subject : Path) (arguments : List String)

/-- A tool is run to its end, or it cannot be found or started and the workspace stays as it is. -/
theorem runTool_cases (workspace : Workspace) :
    (workspace.toolState tool = .missing ∧
      runTool tool operation subject arguments workspace =
        .error (.tool tool "locate" tool .notOnPath) workspace) ∨
    workspace.toolState tool ≠ .missing ∧
      ((∃ cause, workspace.startRefusal? tool arguments = some cause ∧
        runTool tool operation subject arguments workspace =
          .error (.tool tool operation subject (.notStarted cause)) workspace) ∨
      workspace.startRefusal? tool arguments = none ∧
        runTool tool operation subject arguments workspace =
          .ok (workspace.reply ⟨tool, arguments⟩) (workspace.play ⟨tool, arguments⟩)) := by
  cases hpath : workspace.isOnPath tool with
  | false =>
    have hlocate :
        locate tool workspace = .error (.tool tool "locate" tool .notOnPath) workspace := by
      simp only [locate, Action.get_bind, hpath]
      rfl
    exact .inl ⟨by simpa [isOnPath] using hpath, Action.bind_eq_of_error hlocate⟩
  | true =>
    have hlocate : locate tool workspace = .ok () workspace := by
      simp only [locate, Action.get_bind, hpath]
      rfl
    have hrun : runTool tool operation subject arguments workspace = _ :=
      Action.bind_eq_of_ok hlocate
    refine .inr ⟨by simpa [isOnPath] using hpath, ?_⟩
    rw [hrun, Action.get_bind, start]
    cases hrefusal : workspace.startRefusal? tool arguments with
    | some cause => exact .inl ⟨cause, rfl, rfl⟩
    | none => exact .inr ⟨rfl, rfl⟩

/-- How a tool that has to succeed ends, and the workspace that it leaves. -/
inductive ToolRun (workspace : Workspace) : Except Failure (List UInt8) → Workspace → Prop where
  | missing (h : workspace.toolState tool = .missing) :
    ToolRun workspace (.error (.tool tool "locate" tool .notOnPath)) workspace
  | refused {cause : OsError} (found : workspace.toolState tool ≠ .missing)
    (h : workspace.startRefusal? tool arguments = some cause) :
    ToolRun workspace (.error (.tool tool operation subject (.notStarted cause))) workspace
  /-- The tool has been run, and its exit code says that it has failed. -/
  | failed (found : workspace.toolState tool ≠ .missing)
    (started : workspace.startRefusal? tool arguments = none)
    (h : (workspace.reply ⟨tool, arguments⟩).exit ≠ 0) :
    ToolRun workspace
      (.error (.tool tool operation subject (.exited (workspace.reply ⟨tool, arguments⟩).exit.toNat
        (.ofList (Text.trim (workspace.reply ⟨tool, arguments⟩).stderr.toList)))))
      (workspace.play ⟨tool, arguments⟩)
  | succeeded (found : workspace.toolState tool ≠ .missing)
    (started : workspace.startRefusal? tool arguments = none)
    (h : (workspace.reply ⟨tool, arguments⟩).exit = 0) :
    ToolRun workspace (.ok (workspace.reply ⟨tool, arguments⟩).stdout)
      (workspace.play ⟨tool, arguments⟩)

theorem toolRun_capture (workspace : Workspace) :
    ToolRun tool operation subject arguments workspace
      ((capture tool operation subject arguments).answer workspace)
      ((capture tool operation subject arguments).after workspace) := by
  rcases runTool_cases tool operation subject arguments workspace with
    ⟨hmissing, hrun⟩ | ⟨hfound, ⟨cause, hrefusal, hrun⟩ | ⟨hstarted, hrun⟩⟩
  · have hcapture : capture tool operation subject arguments workspace = _ :=
      Action.bind_eq_of_error hrun
    rw [Action.answer_of_error hcapture, Action.after_of_error hcapture]
    exact .missing hmissing
  · have hcapture : capture tool operation subject arguments workspace = _ :=
      Action.bind_eq_of_error hrun
    rw [Action.answer_of_error hcapture, Action.after_of_error hcapture]
    exact .refused hfound hrefusal
  · have hcapture : capture tool operation subject arguments workspace = _ :=
      Action.bind_eq_of_ok hrun
    by_cases hexit : (workspace.reply ⟨tool, arguments⟩).exit = 0
    · rw [if_pos hexit] at hcapture
      rw [Action.answer_of_ok hcapture, Action.after_of_ok hcapture]
      exact .succeeded hfound hstarted hexit
    · rw [if_neg hexit] at hcapture
      rw [Action.answer_of_error hcapture, Action.after_of_error hcapture]
      exact .failed hfound hstarted hexit

/-- Output is taken from a run that succeeds; else the tool has been run or nothing has happened. -/
theorem capture_cases (workspace : Workspace) :
    ((workspace.reply ⟨tool, arguments⟩).exit = 0 ∧
      capture tool operation subject arguments workspace =
        .ok (workspace.reply ⟨tool, arguments⟩).stdout (workspace.play ⟨tool, arguments⟩)) ∨
    ∃ failure later, capture tool operation subject arguments workspace = .error failure later ∧
      (later = workspace ∨ later = workspace.play ⟨tool, arguments⟩) := by
  have hrun := toolRun_capture tool operation subject arguments workspace
  cases hanswer : (capture tool operation subject arguments).answer workspace with
  | ok output =>
    have hcapture := Action.eq_ok_of_answer hanswer
    rw [hanswer] at hrun
    generalize (capture tool operation subject arguments).after workspace = later at hrun hcapture
    cases hrun with
    | succeeded found started hexit => exact .inl ⟨hexit, hcapture⟩
  | error failure =>
    have hcapture := Action.eq_error_of_answer hanswer
    rw [hanswer] at hrun
    refine .inr ⟨failure, _, hcapture, ?_⟩
    generalize (capture tool operation subject arguments).after workspace = later at hrun
    cases hrun with
    | missing => exact .inl rfl
    | refused => exact .inl rfl
    | failed => exact .inr rfl

end Workspace

end EpisodeCut
