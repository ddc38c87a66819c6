import EpisodeCut.Proofs.Registry.Index
import EpisodeCut.Proofs.Run.Lockstep
import Mathlib.Data.List.Forall2
import Mathlib.Logic.Relator

/-!
# Registries under other names

No operation on a registry looks into a name: all that counts is which names are the same. Two
registries whose entries bear related names, one by one, therefore give related names one number
(`Registry.Matches.indexOf?_eq`), and they still match after the same operation on related names, as
long as the relation of the names is one-to-one.
-/

set_option autoImplicit false

namespace EpisodeCut

open Relator

variable {K : String → String → Prop}

/-- The entries have the same options, and their names are related. -/
structure InputEntry.Matches (K : String → String → Prop) (entry other : InputEntry) : Prop where
  path : K entry.path other.path
  options : other.options = entry.options

namespace Registry

/-- The entries of two registries match one by one. -/
def Matches (K : String → String → Prop) (registry other : Registry) : Prop :=
  List.Forall₂ (InputEntry.Matches K) registry.entries other.entries

theorem matches_empty : Matches K empty empty :=
  .nil

variable {registry other : Registry} {path name : String}

/-- Related names have the same number. -/
theorem Matches.indexOf?_eq (unique : BiUnique K) (matched : registry.Matches K other)
    (related : K path name) : registry.indexOf? path = other.indexOf? name := by
  have hfind : ∀ {entries others : List InputEntry},
      List.Forall₂ (InputEntry.Matches K) entries others →
        (entries.map InputEntry.path).findIdx? (· == path) =
          (others.map InputEntry.path).findIdx? (· == name) := by
    -- Searches from the front meet the two names at the same place, or neither of them anywhere.
    intro entries others hentries
    induction hentries with
    | nil => rfl
    | @cons entry otherEntry entries others hentry _ ih =>
      have hsame : (entry.path == path) = (otherEntry.path == name) := by
        rw [Bool.eq_iff_iff, beq_iff_eq, beq_iff_eq]
        exact rel_eq unique hentry.path related
      rw [List.map_cons, List.map_cons, List.findIdx?_cons, List.findIdx?_cons, hsame, ih]
  simp only [indexOf?, registry.agrees.indexOf?_eq_findIdx?, other.agrees.indexOf?_eq_findIdx?]
  exact hfind matched

theorem Matches.mem_paths_iff (unique : BiUnique K) (matched : registry.Matches K other)
    (related : K path name) : path ∈ registry.paths ↔ name ∈ other.paths := by
  rw [← not_iff_not, ← indexOf?_eq_none_iff, ← indexOf?_eq_none_iff,
    matched.indexOf?_eq unique related]

theorem Matches.register (unique : BiUnique K) (matched : registry.Matches K other)
    (related : K path name) : (registry.register path).Matches K (other.register name) := by
  unfold Matches
  rw [entries_register, entries_register, matched.indexOf?_eq unique related]
  by_cases hnew : other.indexOf? name = none
  · rw [if_pos hnew, if_pos hnew]
    exact List.rel_append matched (.cons ⟨related, rfl⟩ .nil)
  · rw [if_neg hnew, if_neg hnew]
    exact matched

/-- Changing the entries of two related names in the same way keeps the match. -/
theorem matches_map (unique : BiUnique K) {entries others : List InputEntry}
    (matched : List.Forall₂ (InputEntry.Matches K) entries others) (related : K path name)
    {change otherChange : InputEntry → InputEntry}
    (h : ∀ entry otherEntry, InputEntry.Matches K entry otherEntry →
      InputEntry.Matches K (change entry) (otherChange otherEntry)) :
    List.Forall₂ (InputEntry.Matches K)
      (entries.map fun entry => if entry.path = path then change entry else entry)
      (others.map fun entry => if entry.path = name then otherChange entry else entry) := by
  rw [List.forall₂_map_left_iff, List.forall₂_map_right_iff]
  refine matched.imp fun entry otherEntry hentry => ?_
  -- Both entries are changed or neither is, since their names are the same two names or are not.
  by_cases hpath : entry.path = path
  · rw [if_pos hpath, if_pos ((rel_eq unique hentry.path related).1 hpath)]
    exact h entry otherEntry hentry
  · rw [if_neg hpath, if_neg (mt (rel_eq unique hentry.path related).2 hpath)]
    exact hentry

theorem Matches.registerWithOptions (unique : BiUnique K) (matched : registry.Matches K other)
    (related : K path name) (options : List String) :
    (registry.registerWithOptions path options).Matches K
      (other.registerWithOptions name options) := by
  unfold Matches
  rw [entries_registerWithOptions, entries_registerWithOptions]
  apply matches_map unique (matched.register unique related) related
  intro entry otherEntry hentry
  exact ⟨hentry.path, rfl⟩

/-- Two renames of related names to related names both succeed or both fail. -/
theorem Matches.rename (unique : BiUnique K) (matched : registry.Matches K other)
    {old new otherOld otherNew : String} (hold : K old otherOld) (hnew : K new otherNew)
    (options : Option (List String)) :
    Concur (Matches K) (registry.rename old new options)
      (other.rename otherOld otherNew options) := by
  -- Whether a rename succeeds is decided by numbers and by which names are the same.
  have hsame : old = new ↔ otherOld = otherNew := rel_eq unique hold hnew
  have hboth : (∃ renamed, registry.rename old new options = .ok renamed) ↔
      ∃ renamed, other.rename otherOld otherNew options = .ok renamed := by
    rw [exists_rename_iff, exists_rename_iff, matched.indexOf?_eq unique hold,
      matched.indexOf?_eq unique hnew, hsame]
  apply Concur.of_iff hboth
  intro renamed otherRenamed hrenamed hother
  unfold Matches
  rw [(rename_eq_ok hrenamed).2.2, (rename_eq_ok hother).2.2]
  apply matches_map unique matched hold
  intro entry otherEntry hentry
  refine ⟨hnew, ?_⟩
  rw [hentry.options]

end Registry

end EpisodeCut
