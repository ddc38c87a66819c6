import EpisodeCut.Proofs.Workspace.Paths

/-!
# Files that advance

A file that is changed is newer afterwards (`FileTree.Advances`). Whatever else changes in the tree,
what is found at the ends of paths with the same components is the same file, or one that has
advanced (`FileTree.Advances.find`).
-/

set_option autoImplicit false

namespace EpisodeCut

/-- A node may stand later in the place of another one: a file that was changed is newer. -/
def FileNode.Advances : FileNode → FileNode → Prop
  | .file before old, .file now new => before ≤ now ∧ (before = now → old = new)
  | _, _ => True

instance (node later : FileNode) : Decidable (node.Advances later) :=
  match node, later with
  | .file before old, .file now new =>
    inferInstanceAs (Decidable (before ≤ now ∧ (before = now → old = new)))
  | .file .., .directory _ => isTrue trivial
  | .directory _, _ => isTrue trivial

theorem FileNode.Advances.rfl {node : FileNode} : node.Advances node := by
  cases node with
  | directory modified => trivial
  | file modified content => exact ⟨Nat.le_refl modified, fun _ => Eq.refl content⟩

namespace FileTree

variable {tree later other : FileTree} {path twin : Path} {place location : Location}

/-- A tree may come after another one: in every place a file that was changed, or replaced by
another file, is newer. -/
def Advances (tree later : FileTree) : Prop :=
  later.home = tree.home ∧ ∀ location, ∀ node ∈ tree.node? location,
    ∀ changed ∈ later.node? location, node.Advances changed

theorem Advances.rfl : tree.Advances tree := by
  refine ⟨Eq.refl _, fun location node hnode changed hchanged => ?_⟩
  rw [Option.mem_unique hnode hchanged]
  exact FileNode.Advances.rfl

/-- Only the places that are listed count. -/
theorem advances_iff :
    tree.Advances later ↔ later.home = tree.home ∧ ∀ entry ∈ tree.nodes,
      ∀ node ∈ tree.node? entry.1, ∀ changed ∈ later.node? entry.1, node.Advances changed := by
  constructor
  · rintro ⟨hhome, h⟩
    exact ⟨hhome, fun entry _ => h entry.1⟩
  · rintro ⟨hhome, h⟩
    refine ⟨hhome, fun location node hnode changed hchanged => ?_⟩
    by_cases hroot : location = []
    · subst hroot
      cases hnode
      trivial
    · have hlookup : tree.nodes.lookup location = some node := by
        simpa [node?, hroot] using hnode
      obtain ⟨before, after, hnodes, -⟩ := List.lookup_eq_some_iff.1 hlookup
      have hmem : (location, node) ∈ tree.nodes := by
        rw [hnodes]
        exact List.mem_append_right before List.mem_cons_self
      exact h (location, node) hmem node hnode changed hchanged

instance (tree later : FileTree) : Decidable (tree.Advances later) :=
  decidable_of_iff _ advances_iff.symm

/-- What is found at the ends of paths with the same components has advanced. -/
theorem Advances.find (advances : tree.Advances later) (same : Path.same path twin = true)
    {node changed : FileNode} (h : tree.find path = .ok (place, node))
    (hlater : later.find twin = .ok (location, changed)) : node.Advances changed := by
  obtain ⟨hplace, hnode⟩ := find_eq_ok h
  obtain ⟨hlocation, hchanged⟩ := find_eq_ok hlater
  have heq : place = location := locate_unique advances.1 same hplace hlocation
  subst heq
  exact advances.2 place node hnode changed hchanged

end FileTree

end EpisodeCut
