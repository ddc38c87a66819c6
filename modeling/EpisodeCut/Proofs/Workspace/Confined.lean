import EpisodeCut.Media.Info
import EpisodeCut.Proofs.Workspace.Paths
import EpisodeCut.Proofs.Workspace.Tools

/-!
# Confined changes

Between two trees the changes are confined to some paths if no file has appeared in a place to which
none of these paths leads (`FileTree.Confined`). Directories may appear, but none may go away or
become a file; so every path that leads to a place goes on to do so, and what is written there can be
removed again (`FileTree.Confined.discharge`).

Tools are tidy if each writes the file that its last argument names and nothing else, and the one that
probes nothing at all (`Script.Tidy`). Then running a tool is confined to its last argument
(`Workspace.confined_play`). What tools remove does not matter for that; files stay as they are only
if the tool that probes removes none either (`Script.Sparing`).
-/

set_option autoImplicit false

namespace EpisodeCut

namespace FileTree

variable {before middle after tree later : FileTree} {paths more : List Path} {path : Path}
  {location : Location}

/-- A path leads to the file at a location, if there is one. -/
structure Reaches (tree : FileTree) (path : Path) (location : Location) : Prop where
  locate : tree.locate path = .ok location
  /-- The path may be that of a file. -/
  mayBeFile : namesDirectory path = false

/-- Every new file is one that a path of the list leads to, and all directories still exist. -/
structure Confined (paths : List Path) (before after : FileTree) : Prop where
  home : after.home = before.home
  directories : ∀ location, before.directoryAt? location = some true →
    after.directoryAt? location = some true
  files : ∀ location, after.directoryAt? location = some false →
    before.directoryAt? location = some false ∨ ∃ path ∈ paths, after.Reaches path location

theorem Confined.reaches (confined : before.Confined paths after)
    (h : before.Reaches path location) : after.Reaches path location :=
  ⟨locate_of_directories confined.home confined.directories h.locate, h.mayBeFile⟩

theorem Confined.refl (paths : List Path) (tree : FileTree) : tree.Confined paths tree :=
  ⟨rfl, fun _ h => h, fun _ h => .inl h⟩

theorem Confined.trans (first : before.Confined paths middle)
    (second : middle.Confined paths after) : before.Confined paths after := by
  refine ⟨second.home.trans first.home, ?_, ?_⟩
  · intro location hdirectory
    exact second.directories location (first.directories location hdirectory)
  · intro location hfile
    rcases second.files location hfile with hmiddle | hreached
    · -- A file that the first step has left is still reached by the same path.
      rcases first.files location hmiddle with hbefore | ⟨path, hpath, hreaches⟩
      · exact .inl hbefore
      · exact .inr ⟨path, hpath, second.reaches hreaches⟩
    · exact .inr hreached

theorem Confined.mono (confined : before.Confined paths after) (h : paths ⊆ more) :
    before.Confined more after := by
  refine ⟨confined.home, confined.directories, ?_⟩
  intro location hfile
  rcases confined.files location hfile with hbefore | ⟨path, hpath, hreaches⟩
  · exact .inl hbefore
  · exact .inr ⟨path, h hpath, hreaches⟩

/-! ## Changes of a tree -/

/-- Where a directory is, nothing else is. -/
theorem ne_of_directory {place : Location} {found : Option Bool}
    (hplace : tree.directoryAt? place = some true) (h : tree.directoryAt? location = found)
    (hfound : found ≠ some true) : place ≠ location := by
  rintro rfl
  exact hfound (h.symm.trans hplace)

theorem ne_root {found : Option Bool} (h : tree.directoryAt? location = found)
    (hfound : found ≠ some true) : location ≠ [] :=
  (ne_of_directory (directoryAt?_root tree) h hfound).symm

theorem confined_put {modified : Nat} {content : List UInt8} (hreaches : tree.Reaches path location)
    (h : tree.directoryAt? location = some false) :
    tree.Confined [path] (tree.put location (.file modified content)) := by
  have hroot : location ≠ [] := ne_root h (by decide)
  have hdirectories : ∀ place, tree.directoryAt? place = some true →
      (tree.put location (.file modified content)).directoryAt? place = some true := by
    intro place hplace
    have hne : place ≠ location := ne_of_directory hplace h (by decide)
    rw [directoryAt?_put hroot, if_neg hne, hplace]
  refine ⟨rfl, hdirectories, ?_⟩
  intro place hplace
  rw [directoryAt?_put hroot] at hplace
  by_cases hne : place = location
  · subst hne
    exact .inl h
  · rw [if_neg hne] at hplace
    exact .inl hplace

theorem confined_add {node : FileNode} {now : Nat} (h : tree.directoryAt? location = none)
    (hpaths : node.isDirectory = false → ∃ path ∈ paths, tree.Reaches path location) :
    tree.Confined paths (tree.add location node now) := by
  have hroot : location ≠ [] := ne_root h (by decide)
  have hdirectories : ∀ place, tree.directoryAt? place = some true →
      (tree.add location node now).directoryAt? place = some true := by
    intro place hplace
    have hne : place ≠ location := ne_of_directory hplace h (by decide)
    rw [directoryAt?_add hroot, if_neg hne, hplace]
  refine ⟨home_add tree location node now, hdirectories, ?_⟩
  intro place hplace
  rw [directoryAt?_add hroot] at hplace
  by_cases hne : place = location
  · subst hne
    rw [if_pos rfl] at hplace
    obtain ⟨path, hpath, hreaches⟩ := hpaths (Option.some.inj hplace)
    exact .inr ⟨path, hpath, locate_of_directories (home_add tree place node now) hdirectories
      hreaches.locate, hreaches.mayBeFile⟩
  · rw [if_neg hne] at hplace
    exact .inl hplace

theorem confined_drop {now : Nat} (h : tree.directoryAt? location = some false) :
    tree.Confined [] (tree.drop location now) := by
  have hroot : location ≠ [] := ne_root h (by decide)
  refine ⟨home_drop tree location now, ?_, ?_⟩
  · intro place hplace
    have hne : place ≠ location := ne_of_directory hplace h (by decide)
    rw [directoryAt?_drop hroot, if_neg hne, hplace]
  · intro place hplace
    rw [directoryAt?_drop hroot] at hplace
    by_cases hne : place = location
    · rw [if_pos hne] at hplace
      cases hplace
    · rw [if_neg hne] at hplace
      exact .inl hplace

theorem directoryAt?_of_node? {node : FileNode} (h : tree.node? location = some node) :
    tree.directoryAt? location = some node.isDirectory := by
  rw [directoryAt?, h]
  rfl

/-- Writing a file is confined to its path. -/
theorem confined_write {modified now : Nat} {content : List UInt8}
    (h : tree.write path modified content now = .ok later) : tree.Confined [path] later := by
  rw [write] at h
  split at h
  · cases h
  · next location hlocate =>
    split at h
    · cases h
    · next hnode =>
      split at h
      · cases h
      · next hname =>
        -- The file exists and gets another content.
        cases h
        exact confined_put ⟨hlocate, by simpa using hname⟩ (directoryAt?_of_node? hnode)
    · next hnone =>
      split at h
      · cases h
      · next hname =>
        -- The file is new, and its path leads to it.
        cases h
        have hfree : tree.directoryAt? location = none := by
          rw [directoryAt?, hnone]
          rfl
        exact confined_add hfree fun _ =>
          ⟨path, List.mem_cons_self, hlocate, by simpa using hname⟩

theorem remove_eq_ok {now : Nat} (h : tree.remove path now = .ok later) :
    ∃ location, tree.locate path = .ok location ∧ tree.directoryAt? location = some false ∧
      later = tree.drop location now := by
  rw [remove] at h
  split at h
  · cases h
  · cases h
  · next location modified content hfind =>
    cases h
    obtain ⟨hlocate, hnode⟩ := find_eq_ok hfind
    exact ⟨location, hlocate, directoryAt?_of_node? hnode, rfl⟩

/-- A file is removed by a path that leads to it. -/
theorem remove_of_reaches (hreaches : tree.Reaches path location)
    (hfile : tree.directoryAt? location = some false) (now : Nat) :
    tree.remove path now = .ok (tree.drop location now) := by
  obtain ⟨modified, content, hnode⟩ := directoryAt?_eq_some_false.1 hfile
  rw [remove, find_of_locate hreaches.locate hnode hreaches.mayBeFile]

/-- Removing a file is confined to no path at all. -/
theorem confined_remove {now : Nat} (h : tree.remove path now = .ok later) :
    tree.Confined [] later := by
  obtain ⟨location, -, hfile, rfl⟩ := remove_eq_ok h
  exact confined_drop hfile

/-- What is left of a tree from which a file is removed, if there is one. -/
def without (tree : FileTree) (path : Path) (now : Nat) : FileTree :=
  match tree.remove path now with
  | .ok later => later
  | .error _ => tree

/-- After the file at a path is removed, there is no file at the path. -/
theorem read_without_ne_ok (tree : FileTree) (path : Path) (now : Nat) (content : List UInt8) :
    (tree.without path now).read path ≠ .ok content := by
  intro hread
  obtain ⟨place, modified, hfind⟩ := find_of_read hread
  rw [without] at hfind
  split at hfind
  · next later hremove =>
    -- The path leads to where the file was, for no directory on the way has gone.
    obtain ⟨location, hlocate, hfile, rfl⟩ := remove_eq_ok hremove
    have hconfined : tree.Confined [] (tree.drop location now) := confined_drop hfile
    obtain ⟨hplace, hnode⟩ := find_eq_ok hfind
    rw [locate_of_directories hconfined.home hconfined.directories hlocate] at hplace
    cases hplace
    have hkept := directoryAt?_of_node? hnode
    rw [directoryAt?_drop (ne_root hfile (by decide)), if_pos rfl] at hkept
    cases hkept
  · next cause hremove =>
    rw [remove, hfind] at hremove
    cases hremove

/-- After the file at a path is removed, the path need not be counted any longer. -/
theorem Confined.discharge (confined : before.Confined (path :: paths) after) (now : Nat) :
    before.Confined paths (after.without path now) := by
  have hstep : after.Confined [] (after.without path now) := by
    rw [without]
    split
    · next later hremove => exact confined_remove hremove
    · exact .refl [] after
  have htotal := confined.trans (hstep.mono (List.nil_subset (path :: paths)))
  refine ⟨htotal.home, htotal.directories, ?_⟩
  intro location hfile
  have hkept : after.directoryAt? location = some false := by
    rcases hstep.files location hfile with hkept | ⟨_, hnone, _⟩
    · exact hkept
    · cases hnone
  rcases confined.files location hkept with hbefore | ⟨other, hother, hreaches⟩
  · exact .inl hbefore
  · rcases List.mem_cons.1 hother with rfl | hother
    · -- The path leads to the file, so the file has been removed.
      have hremove := remove_of_reaches hreaches hkept now
      have hroot : location ≠ [] := ne_root hkept (by decide)
      simp only [without, hremove, directoryAt?_drop hroot] at hfile
      cases hfile
    · exact .inr ⟨other, hother, hstep.reaches hreaches⟩

/-! ## Directories -/

theorem confined_makeDirectory {components : List Path.Component} {now : Nat}
    (h : tree.makeDirectory components now = .ok later) : tree.Confined [] later := by
  rw [makeDirectory] at h
  cases hwalk : tree.walk tree.home components with
  | error cause =>
    rw [hwalk] at h
    cases h
  | ok location =>
    simp only [hwalk] at h
    cases hnode : tree.node? location with
    | some node =>
      rw [hnode] at h
      cases h
    | none =>
      rw [hnode] at h
      cases h
      have hfree : tree.directoryAt? location = none := by
        rw [directoryAt?, hnode]
        rfl
      have hkind : (FileNode.directory now).isDirectory ≠ false := Bool.noConfusion
      exact confined_add hfree fun hfile => absurd hfile hkind

/-- However far one gets with creating directories, no file appears. -/
theorem confined_makeDirectoriesUp (now : Nat) (components ending : List Path.Component)
    (tree : FileTree) : tree.Confined [] (makeDirectoriesUp now components ending tree).1 := by
  have hattempt (tree : FileTree) (whole : List Path.Component) :
      tree.Confined [] (match tree.makeDirectory whole now with
        | .ok made => (made, Except.ok ())
        | .error cause =>
          (tree, if tree.leadsToDirectory whole then .ok () else .error cause)).1 := by
    split
    · next made hmade => exact confined_makeDirectory hmade
    · exact .refl [] tree
  induction components generalizing ending tree with
  | nil => exact .refl [] tree
  | cons component above ih =>
    rw [makeDirectoriesUp]
    split
    · -- The directory above is made first, and if that fails, nothing is made below it.
      have habove := ih [] tree
      split
      · next grown hmade =>
        rw [hmade] at habove
        exact habove.trans (hattempt grown _)
      · exact habove
    · exact hattempt tree _

theorem confined_makeDirectories (tree : FileTree) (path : Path) (now : Nat) :
    tree.Confined [] (tree.makeDirectories path now).1 := by
  rw [makeDirectories]
  split
  · exact .refl [] tree
  · exact confined_makeDirectoriesUp now _ _ tree

end FileTree

/-! ## Tools -/

/-- A tool writes at most the file that its last argument names, and the tool that probes writes no
file. -/
structure Script.Tidy (script : Script) : Prop where
  writes : ∀ number invocation tree, ∀ file ∈ (script number invocation tree).writes,
    invocation.arguments.getLast? = some file.path
  probing : ∀ number arguments tree, (script number ⟨probeTool, arguments⟩ tree).writes = []

/-- The tool that probes removes no file. -/
def Script.Sparing (script : Script) : Prop :=
  ∀ number arguments tree, (script number ⟨probeTool, arguments⟩ tree).removes = []

namespace Workspace

variable {workspace : Workspace} {paths : List Path}

theorem confined_write (workspace : Workspace) (path : Path) (modified : Nat)
    (content : List UInt8) :
    workspace.tree.Confined [path] (workspace.write path modified content).tree := by
  rw [write]
  split
  · next tree hwrite => exact FileTree.confined_write hwrite
  · exact .refl [path] workspace.tree

theorem tree_remove (workspace : Workspace) (path : Path) :
    (workspace.remove path).tree = workspace.tree.without path workspace.now := by
  rw [remove, FileTree.without]
  cases workspace.tree.remove path workspace.now with
  | ok tree => rfl
  | error cause => rfl

theorem confined_remove (workspace : Workspace) (path : Path) :
    workspace.tree.Confined [] (workspace.remove path).tree := by
  rw [remove]
  split
  · next tree hremove => exact FileTree.confined_remove hremove
  · exact .refl [] workspace.tree

/-- Steps that are confined to some paths are so together. -/
theorem confined_foldl {α : Type} {step : Workspace → α → Workspace} {steps : List α}
    (h : ∀ a ∈ steps, ∀ earlier : Workspace, earlier.tree.Confined paths (step earlier a).tree)
    (workspace : Workspace) : workspace.tree.Confined paths (steps.foldl step workspace).tree := by
  induction steps generalizing workspace with
  | nil => exact .refl paths workspace.tree
  | cons a rest ih =>
    have hrest := ih (fun b hb => h b (List.mem_cons_of_mem a hb)) (step workspace a)
    exact (h a List.mem_cons_self workspace).trans hrest

theorem confined_apply {reply : Reply} (h : ∀ file ∈ reply.writes, file.path ∈ paths)
    (workspace : Workspace) : workspace.tree.Confined paths (workspace.apply reply).tree := by
  have hwrite (file) (hfile : file ∈ reply.writes) (workspace : Workspace) :
      workspace.tree.Confined paths
        (workspace.write file.path file.modified file.content).tree :=
    (confined_write workspace file.path file.modified file.content).mono
      (List.cons_subset.2 ⟨h file hfile, List.nil_subset paths⟩)
  have hremove (path) (_ : path ∈ reply.removes) (workspace : Workspace) :
      workspace.tree.Confined paths (workspace.remove path).tree :=
    (confined_remove workspace path).mono (List.nil_subset paths)
  exact (confined_foldl hwrite workspace).trans (confined_foldl hremove _)

/-- The run of a tool is confined to its last argument. -/
theorem confined_play (tidy : workspace.script.Tidy) {invocation : Invocation}
    (h : ∀ path, invocation.arguments.getLast? = some path → path ∈ paths) :
    workspace.tree.Confined paths (workspace.play invocation).tree := by
  have hwrites : ∀ file ∈ (workspace.reply invocation).writes, file.path ∈ paths :=
    fun file hfile => h file.path (tidy.writes _ invocation workspace.tree file hfile)
  exact confined_apply hwrites { workspace with
    invocations := workspace.invocations ++ [invocation], now := workspace.now + 1 }

/-- No file appears by probing. -/
theorem confined_play_probe (tidy : workspace.script.Tidy) (arguments : List String) :
    workspace.tree.Confined paths (workspace.play ⟨probeTool, arguments⟩).tree := by
  have hnone : (workspace.reply ⟨probeTool, arguments⟩).writes = [] :=
    tidy.probing workspace.invocations.length arguments workspace.tree
  have hwrites : ∀ file ∈ (workspace.reply ⟨probeTool, arguments⟩).writes, file.path ∈ paths := by
    rw [hnone]
    exact nofun
  exact confined_apply hwrites { workspace with
    invocations := workspace.invocations ++ [⟨probeTool, arguments⟩], now := workspace.now + 1 }

/-- Probing leaves all files as they are if none is removed by it. -/
theorem tree_play_probe (tidy : workspace.script.Tidy) (sparing : workspace.script.Sparing)
    (arguments : List String) :
    (workspace.play ⟨probeTool, arguments⟩).tree = workspace.tree := by
  have hwrites := tidy.probing workspace.invocations.length arguments workspace.tree
  have hremoves := sparing workspace.invocations.length arguments workspace.tree
  simp only [play, reply, apply, hwrites, hremoves, List.foldl_nil]

end Workspace

end EpisodeCut
