import EpisodeCut.Workspace.FileTree

/-!
# Nodes and paths

What there is in a tree after it was changed (`FileTree.directoryAt?`), and where paths lead: that
depends on the components of a path and on the directory in which the run takes place
(`FileTree.locate_unique`), and a path that leads somewhere does so as long as no directory becomes
something else (`FileTree.locate_of_directories`).
-/

set_option autoImplicit false

namespace EpisodeCut

theorem Path.same_self (path : Path) : path.same path = true :=
  beq_self_eq_true path.components

theorem Path.same_comm (path twin : Path) : path.same twin = twin.same path :=
  BEq.comm

namespace FileTree

variable {tree other : FileTree} {path twin : Path} {place location : Location} {node : FileNode}

/-! ## Changed nodes -/

/-- Whether what is at a location is a directory, if there is anything. -/
def directoryAt? (tree : FileTree) (location : Location) : Option Bool :=
  (tree.node? location).map FileNode.isDirectory

theorem directoryAt?_root (tree : FileTree) : tree.directoryAt? [] = some true := rfl

theorem directoryAt?_eq_some_true :
    tree.directoryAt? location = some true ↔
      ∃ modified, tree.node? location = some (.directory modified) := by
  rw [directoryAt?, Option.map_eq_some_iff]
  constructor
  · rintro ⟨node, hnode, hkind⟩
    cases node with
    | directory modified => exact ⟨modified, hnode⟩
    | file modified content => cases hkind
  · rintro ⟨modified, hnode⟩
    exact ⟨_, hnode, rfl⟩

/-- There is a file at a location. -/
def HasFile (tree : FileTree) (location : Location) : Prop :=
  ∃ modified content, tree.node? location = some (.file modified content)

theorem directoryAt?_eq_some_false :
    tree.directoryAt? location = some false ↔ tree.HasFile location := by
  rw [directoryAt?, Option.map_eq_some_iff, HasFile]
  constructor
  · rintro ⟨node, hnode, hkind⟩
    cases node with
    | directory modified => cases hkind
    | file modified content => exact ⟨modified, content, hnode⟩
  · rintro ⟨modified, content, hnode⟩
    exact ⟨_, hnode, rfl⟩

instance (tree : FileTree) (location : Location) : Decidable (tree.HasFile location) :=
  decidable_of_iff _ directoryAt?_eq_some_false

theorem lookup_filter_ne (nodes : List (Location × FileNode)) (h : place ≠ location) :
    (nodes.filter (·.1 != location)).lookup place = nodes.lookup place := by
  induction nodes with
  | nil => rfl
  | cons entry rest ih =>
    obtain ⟨first, node⟩ := entry
    by_cases hfirst : first = location
    · subst hfirst
      have hkey : (place == first) = false := beq_false_of_ne h
      rw [List.filter_cons_of_neg (by simp), ih, List.lookup_cons, hkey]
    · rw [List.filter_cons_of_pos (by simpa using hfirst), List.lookup_cons, List.lookup_cons, ih]

theorem lookup_filter_self (nodes : List (Location × FileNode)) :
    (nodes.filter (·.1 != location)).lookup location = none := by
  rw [List.lookup_eq_none_iff]
  intro entry hentry
  have hother := bne_iff_ne.1 (List.mem_filter.1 hentry).2
  exact bne_iff_ne.2 hother.symm

theorem directoryAt?_put (hlocation : location ≠ []) :
    (tree.put location node).directoryAt? place =
      if place = location then some node.isDirectory else tree.directoryAt? place := by
  by_cases hroot : place = []
  · subst hroot
    rw [if_neg (Ne.symm hlocation)]
    rfl
  · by_cases hplace : place = location
    · subst hplace
      simp [directoryAt?, node?, put, hroot]
    · have hkey : (place == location) = false := beq_false_of_ne hplace
      simp [directoryAt?, node?, put, hroot, hplace, List.lookup_cons, hkey,
        lookup_filter_ne _ hplace]

theorem directoryAt?_erase (hlocation : location ≠ []) :
    (tree.erase location).directoryAt? place =
      if place = location then none else tree.directoryAt? place := by
  by_cases hroot : place = []
  · subst hroot
    rw [if_neg (Ne.symm hlocation)]
    rfl
  · by_cases hplace : place = location
    · subst hplace
      simp [directoryAt?, node?, erase, hroot, lookup_filter_self]
    · simp [directoryAt?, node?, erase, hroot, hplace, lookup_filter_ne _ hplace]

/-- Nodes that are changed in their places are found there changed. -/
theorem lookup_map_node (change : Location → FileNode → FileNode)
    (nodes : List (Location × FileNode)) (place : Location) :
    (nodes.map fun entry => (entry.1, change entry.1 entry.2)).lookup place =
      (nodes.lookup place).map (change place) := by
  induction nodes with
  | nil => rfl
  | cons entry rest ih =>
    rw [List.map_cons, List.lookup_cons, List.lookup_cons]
    cases hkey : place == entry.1 with
    | false => exact ih
    | true =>
      rw [beq_iff_eq.1 hkey]
      rfl

/-- A new time makes nothing else of a node. -/
theorem directoryAt?_touch (tree : FileTree) (location place : Location) (now : Nat) :
    (tree.touch location now).directoryAt? place = tree.directoryAt? place := by
  rw [touch]
  split
  · cases place <;> rfl
  · by_cases hroot : place = []
    · subst hroot
      rfl
    · have hkind (node : FileNode) :
          (if place = location then node.touch now else node).isDirectory = node.isDirectory := by
        split
        · cases node <;> rfl
        · rfl
      have hlookup := lookup_map_node
        (fun first node => if first = location then node.touch now else node) tree.nodes place
      simp only [directoryAt?, node?, List.isEmpty_iff, hroot, if_false]
      rw [hlookup, Option.map_map]
      congr 1
      funext node
      exact hkind node

theorem directoryAt?_add (hlocation : location ≠ []) (now : Nat) :
    (tree.add location node now).directoryAt? place =
      if place = location then some node.isDirectory else tree.directoryAt? place := by
  rw [add, directoryAt?_put hlocation, directoryAt?_touch]

theorem directoryAt?_drop (hlocation : location ≠ []) (now : Nat) :
    (tree.drop location now).directoryAt? place =
      if place = location then none else tree.directoryAt? place := by
  rw [drop, directoryAt?_erase hlocation, directoryAt?_touch]

@[simp] theorem home_touch (tree : FileTree) (location : Location) (now : Nat) :
    (tree.touch location now).home = tree.home := by
  rw [touch]
  split <;> rfl

@[simp] theorem home_add (tree : FileTree) (location : Location) (node : FileNode) (now : Nat) :
    (tree.add location node now).home = tree.home :=
  home_touch tree location.dropLast now

@[simp] theorem home_drop (tree : FileTree) (location : Location) (now : Nat) :
    (tree.drop location now).home = tree.home :=
  home_touch tree location.dropLast now

/-! ## Where paths lead -/

/-- The nodes of a tree decide whether components can be followed, but not to where. -/
theorem walk_unique {components : List Path.Component} {start : Location}
    (h : tree.walk start components = .ok place)
    (hother : other.walk start components = .ok location) : place = location := by
  induction components generalizing start with
  | nil =>
    cases h
    cases hother
    rfl
  | cons component rest ih =>
    rw [walk] at h hother
    split at h
    · cases h
    · cases h
    · split at hother
      · cases hother
      · cases hother
      · cases hfollow : follow start component with
        | error cause =>
          rw [hfollow] at h
          cases h
        | ok next =>
          rw [hfollow] at h hother
          exact ih h hother

/-- Components that can be followed are followed wherever the directories still exist. -/
theorem walk_of_directories {components : List Path.Component} {start : Location}
    (directories : ∀ location, tree.directoryAt? location = some true →
      other.directoryAt? location = some true)
    (h : tree.walk start components = .ok location) :
    other.walk start components = .ok location := by
  induction components generalizing start with
  | nil => exact h
  | cons component rest ih =>
    rw [walk] at h ⊢
    split at h
    · cases h
    · cases h
    · next modified hnode =>
      obtain ⟨later, hlater⟩ := directoryAt?_eq_some_true.1
        (directories start (directoryAt?_eq_some_true.2 ⟨modified, hnode⟩))
      rw [hlater]
      cases hfollow : follow start component with
      | error cause =>
        rw [hfollow] at h
        cases h
      | ok next =>
        rw [hfollow] at h
        exact ih h

theorem locate_eq_ok_iff :
    tree.locate path = .ok location ↔
      refusal? path = none ∧ path ≠ "" ∧ tree.walk tree.home path.components = .ok location := by
  rw [locate]
  cases hrefusal : refusal? path with
  | some cause => simp
  | none =>
    by_cases hempty : path = ""
    · simp [hempty]
    · simp [hempty]

theorem locate_unique (hhome : other.home = tree.home) (same : Path.same path twin = true)
    (h : tree.locate path = .ok place) (hother : other.locate twin = .ok location) :
    place = location := by
  have hcomponents : Path.components path = Path.components twin := by
    simpa [Path.same] using same
  have hwalk := (locate_eq_ok_iff.1 h).2.2
  have hotherWalk := (locate_eq_ok_iff.1 hother).2.2
  rw [hhome, ← hcomponents] at hotherWalk
  exact walk_unique hwalk hotherWalk

theorem locate_of_directories (hhome : other.home = tree.home)
    (directories : ∀ location, tree.directoryAt? location = some true →
      other.directoryAt? location = some true)
    (h : tree.locate path = .ok location) : other.locate path = .ok location := by
  obtain ⟨hrefusal, hempty, hwalk⟩ := locate_eq_ok_iff.1 h
  rw [← hhome] at hwalk
  exact locate_eq_ok_iff.2 ⟨hrefusal, hempty, walk_of_directories directories hwalk⟩

theorem find_eq_ok (h : tree.find path = .ok (location, node)) :
    tree.locate path = .ok location ∧ tree.node? location = some node := by
  rw [find] at h
  split at h
  · cases h
  · next place hplace =>
    split at h
    · cases h
    · next found hfound =>
      split at h
      · cases h
      · cases h
        exact ⟨hplace, hfound⟩

theorem find_of_locate (h : tree.locate path = .ok location)
    (hnode : tree.node? location = some node) (hname : namesDirectory path = false) :
    tree.find path = .ok (location, node) := by
  rw [find, h]
  simp only [hnode, hname, Bool.false_and, Bool.false_eq_true, if_false]

theorem find_of_read {content : List UInt8} (h : tree.read path = .ok content) :
    ∃ location modified, tree.find path = .ok (location, .file modified content) := by
  rw [read] at h
  split at h
  · cases h
  · cases h
  · next location modified content hfind =>
    cases h
    exact ⟨location, modified, hfind⟩

theorem modified?_of_find (h : tree.find path = .ok (location, node)) :
    tree.modified? path = some node.modified := by
  rw [modified?, h]
  rfl

end FileTree

end EpisodeCut
