import EpisodeCut.Proofs.Registry.Table

/-!
# Numbers that stay

The filter program is written while files are still being registered, and it refers to them by
number. So the number of a file may not change under it. Whatever is done with a table, its index
stays in step with its entries (`Agrees.perform`, and by induction `agrees_run`). Until it is
cleared, a table loses no entry, and a file loses its number only when it is itself renamed
(`Agrees.keeps_perform`, and by induction `Agrees.keeps_run`).
-/

set_option autoImplicit false

namespace EpisodeCut.InputTable

/-! ## Operations -/

/-- What can be done with a table. -/
inductive Operation where
  | register (path : String)
  | registerWithOptions (path : String) (options : List String)
  | rename (old new : String) (options : Option (List String))
  | clear
  deriving DecidableEq, Repr

/-- The table that an operation leaves, also where it fails. -/
def Operation.perform (table : InputTable) : Operation → InputTable
  | .register path => (InputTable.register path).after table
  | .registerWithOptions path options => (InputTable.registerWithOptions path options).after table
  | .rename old new options => (InputTable.rename old new options).after table
  | .clear => InputTable.clear.after table

/-- The table that operations leave, one after the other. -/
def run (table : InputTable) (operations : List Operation) : InputTable :=
  operations.foldl Operation.perform table

/-- Whether an operation is a rename of this file that succeeds. -/
def Operation.Renames (table : InputTable) (path : String) : Operation → Prop
  | .rename old new options =>
    old = path ∧ (InputTable.rename old new options).succeeds table = true
  | _ => False

/-- Whether one of the operations is a rename of this file that succeeds where it is carried out. -/
def Renames (path : String) : InputTable → List Operation → Prop
  | _, [] => False
  | table, operation :: rest =>
    operation.Renames table path ∨ Renames path (operation.perform table) rest

@[simp] theorem run_nil (table : InputTable) : table.run [] = table := rfl

@[simp] theorem run_cons (table : InputTable) (operation : Operation)
    (operations : List Operation) :
    table.run (operation :: operations) = (operation.perform table).run operations := rfl

/-! ## The index -/

variable {table later : InputTable}

theorem Agrees.perform (agrees : table.Agrees) (operation : Operation) :
    (operation.perform table).Agrees := by
  cases operation with
  | register path => exact agrees.register path
  | registerWithOptions path options => exact agrees.registerWithOptions path options
  | rename old new options => exact agrees.rename old new options
  | clear => exact agrees_empty

theorem agrees_run (operations : List Operation) : (empty.run operations).Agrees := by
  -- The table changes under the induction, so every table that agrees has to be covered.
  suffices h : ∀ table : InputTable, table.Agrees → (table.run operations).Agrees from
    h empty agrees_empty
  induction operations with
  | nil =>
    intro table agrees
    exact agrees
  | cons operation operations ih =>
    intro table agrees
    rw [run_cons]
    apply ih
    exact agrees.perform operation

/-- No two entries bear one name, and the number of a file is the place of its entry: the place that
a search from the front comes upon. -/
structure Numbered (table : InputTable) : Prop where
  distinct : table.paths.Nodup
  indexed : ∀ path place,
    table.indexOf? path = some place ↔
      ∃ entry, table.entries[place]? = some entry ∧ entry.path = path
  searched : ∀ path, table.indexOf? path = table.entries.findIdx? (·.path == path)

theorem Agrees.numbered (agrees : table.Agrees) : table.Numbered where
  distinct := agrees.nodup_paths
  indexed := by
    intro path place
    rw [agrees, paths, List.getElem?_map, Option.map_eq_some_iff]
  searched := by
    intro path
    rw [agrees.indexOf?_eq_findIdx?, paths, List.findIdx?_map]
    rfl

/-! ## Numbers of files -/

/-- No entry is lost, and every file keeps its number, unless it is one of the `renamed` ones. -/
structure Keeps (table later : InputTable) (renamed : String → Prop) : Prop where
  length_le : table.entries.length ≤ later.entries.length
  number : ∀ path place, table.indexOf? path = some place → ¬ renamed path →
    later.indexOf? path = some place

theorem Keeps.refl (table : InputTable) (renamed : String → Prop) : Keeps table table renamed where
  length_le := Nat.le_refl _
  number := fun _ _ hplace _ => hplace

theorem Keeps.trans {last : InputTable} {renamed renamedLater : String → Prop}
    (first : Keeps table later renamed) (second : Keeps later last renamedLater) :
    Keeps table last fun path => renamed path ∨ renamedLater path where
  length_le := Nat.le_trans first.length_le second.length_le
  number := by
    intro path place hplace hspared
    have hkept := first.number path place hplace fun h => hspared (Or.inl h)
    exact second.number path place hkept fun h => hspared (Or.inr h)

theorem Keeps.mono {renamed more : String → Prop} (keeps : Keeps table later renamed)
    (h : ∀ path, renamed path → more path) : Keeps table later more where
  length_le := keeps.length_le
  number := fun path place hplace hspared => keeps.number path place hplace (hspared ∘ h path)

theorem keeps_register (table : InputTable) (path : String) (renamed : String → Prop) :
    Keeps table ((register path).after table) renamed where
  length_le := by
    have hpaths := congrArg List.length (paths_register table path)
    simp only [paths, List.length_map] at hpaths
    rw [hpaths]
    split <;> simp
  number := by
    intro other place hother _
    rw [indexOf?_register]
    split
    · next hsame => rw [← hsame, hother, Option.getD_some]
    · exact hother

theorem keeps_withOptions (table : InputTable) (place : Nat) (options : Option (List String))
    (renamed : String → Prop) : Keeps table (table.withOptions place options) renamed where
  length_le := by simp [entries_withOptions]
  number := by
    intro path other hother _
    rw [indexOf?_withOptions, hother]

/-- A file that takes a free name leaves its own and disturbs no other file. -/
theorem keeps_withName (place : Nat) (old : String) {new : String}
    (fresh : table.indexOf? new = none) :
    Keeps table (table.withName place old new) (· = old) where
  length_le := by simp [withName]
  number := by
    intro path other hother hdiffers
    have hnew : path ≠ new := by
      rintro rfl
      rw [fresh] at hother
      cases hother
    rw [indexOf?_withName, if_neg hnew, if_neg hdiffers, hother]

theorem keeps_rename (table : InputTable) (old new : String) (options : Option (List String)) :
    Keeps table ((rename old new options).after table)
      ((Operation.rename old new options).Renames table) := by
  rcases rename_cases table old new options with
    ⟨place, -, -, h⟩ | ⟨place, -, -, hnew, h⟩ | ⟨failure, -, h⟩
  · rw [Action.after_of_ok h]
    exact keeps_withOptions table place options _
  · rw [Action.after_of_ok h]
    -- The new name comes first, and then the options, which move no file.
    have hsteps := (keeps_withName place old hnew).trans
      (keeps_withOptions _ place options fun _ => False)
    apply hsteps.mono
    intro path hpath
    rcases hpath with rfl | hnever
    · exact ⟨rfl, by rw [Action.succeeds, h]⟩
    · exact hnever.elim
  · rw [Action.after_of_error h]
    exact Keeps.refl table _

/-- What one operation keeps, where it does not clear the table. -/
theorem keeps_perform (table : InputTable) {operation : Operation} (h : operation ≠ .clear) :
    Keeps table (operation.perform table) fun path => operation.Renames table path := by
  cases operation with
  | register path => exact keeps_register table path _
  | registerWithOptions path options =>
    obtain ⟨place, -, hafter⟩ := registerWithOptions_eq table path options
    rw [Operation.perform, hafter]
    have hsteps := (keeps_register table path fun _ => False).trans
      (keeps_withOptions _ place (some options) fun _ => False)
    apply hsteps.mono
    intro other hnever
    exact (or_self_iff.1 hnever).elim
  | rename old new options => exact keeps_rename table old new options
  | clear => exact absurd rfl h

theorem keeps_run (table : InputTable) {operations : List Operation} (h : .clear ∉ operations) :
    Keeps table (table.run operations) fun path => Renames path table operations := by
  induction operations generalizing table with
  | nil => exact Keeps.refl table _
  | cons operation operations ih =>
    rw [List.mem_cons, not_or] at h
    have hfirst := keeps_perform table (Ne.symm h.1)
    have hrest := ih (operation.perform table) h.2
    exact hfirst.trans hrest

/-! ## Renaming -/

/-- The file `new` stands where `old` stood, with the new options or else with the options of `old`,
and every other file is as it was. -/
structure Replaces (table later : InputTable) (old new : String) (options : Option (List String))
    (place : Nat) : Prop where
  found : table.indexOf? old = some place
  moved : later.indexOf? new = some place
  gone : old ≠ new → later.indexOf? old = none
  carried : later.optionsOf? new = (table.optionsOf? old).map fun previous => options.getD previous
  others : ∀ path, path ≠ old → path ≠ new →
    later.indexOf? path = table.indexOf? path ∧ later.optionsOf? path = table.optionsOf? path

/-- New options for a place are those of the file in this place alone. -/
theorem Agrees.replaces_self (agrees : table.Agrees) {path : String} {place : Nat}
    (found : table.indexOf? path = some place) (options : Option (List String)) :
    Replaces table (table.withOptions place options) path path options place where
  found := found
  moved := by rw [indexOf?_withOptions, found]
  gone := fun h => absurd rfl h
  carried := by rw [optionsOf?_withOptions, if_pos found]
  others := by
    intro other hother _
    -- Two names in one place would be one name.
    have hapart : table.indexOf? other ≠ some place := by
      intro hsame
      rw [agrees] at hsame found
      rw [found] at hsame
      exact hother (Option.some.inj hsame).symm
    rw [indexOf?_withOptions, optionsOf?_withOptions, if_neg hapart]
    exact ⟨rfl, rfl⟩

/-- A free name in the place of a file, before the options are looked at. -/
theorem Agrees.replaces_withName (agrees : table.Agrees) {place : Nat} {old new : String}
    (found : table.indexOf? old = some place) (differs : old ≠ new) :
    Replaces table (table.withName place old new) old new none place where
  found := found
  moved := by rw [indexOf?_withName, if_pos rfl]
  gone := fun _ => by rw [indexOf?_withName, if_neg differs, if_pos rfl]
  carried := by
    rw [agrees.optionsOf?_withName found, if_pos rfl]
    simp
  others := by
    intro path hold hnew
    rw [indexOf?_withName, if_neg hnew, if_neg hold, agrees.optionsOf?_withName found, if_neg hnew,
      if_neg hold]
    exact ⟨rfl, rfl⟩

/-- Replacing the options of a file that has just taken its place. -/
theorem Replaces.trans_self {last : InputTable} {old new : String} {options : Option (List String)}
    {place : Nat} (first : Replaces table later old new none place)
    (second : Replaces later last new new options place) :
    Replaces table last old new options place where
  found := first.found
  moved := second.moved
  gone := by
    intro hdiffers
    rw [(second.others old hdiffers hdiffers).1]
    exact first.gone hdiffers
  carried := by
    rw [second.carried, first.carried, Option.map_map]
    rfl
  others := by
    intro path hold hnew
    have hkept := first.others path hold hnew
    have hlast := second.others path hnew hnew
    exact ⟨hlast.1.trans hkept.1, hlast.2.trans hkept.2⟩

theorem Agrees.replaces_rename (agrees : table.Agrees) {old new : String}
    {options : Option (List String)} {place : Nat}
    (h : InputTable.rename old new options table = .ok place later) :
    Replaces table later old new options place := by
  rcases rename_cases table old new options with
    ⟨found, hold, hsame, hrename⟩ | ⟨found, hold, hdiffers, hnew, hrename⟩ | ⟨failure, -, hrename⟩
  · rw [hrename] at h
    cases h
    subst hsame
    exact agrees.replaces_self hold options
  · rw [hrename] at h
    cases h
    -- The new name carries the old options over, and then they may be replaced.
    have hfirst := agrees.replaces_withName hold hdiffers
    exact hfirst.trans_self ((agrees.withName hold hnew).replaces_self hfirst.moved options)
  · rw [hrename] at h
    cases h

theorem eq_of_rename_eq_error {old new : String} {options : Option (List String)}
    {failure : Failure} (h : rename old new options table = .error failure later) :
    later = table := by
  rcases rename_cases table old new options with
    ⟨place, -, -, hrename⟩ | ⟨place, -, -, -, hrename⟩ | ⟨other, -, hrename⟩
  · rw [hrename] at h
    cases h
  · rw [hrename] at h
    cases h
  · rw [hrename] at h
    cases h
    rfl

/-! ## Whatever was done before -/

/-- After any operations the index is that of a search of the entries. Then, as long as the table is
not cleared, no operations lose an entry or the number of a file, save that of a file that is itself
renamed. A rename that succeeds gives the number of the one file to the other and touches nothing
else, and one that fails touches nothing. -/
theorem numbers_stay (before : List Operation) :
    (empty.run before).Numbered ∧
      (∀ operations, .clear ∉ operations →
        Keeps (empty.run before) ((empty.run before).run operations) fun path =>
          Renames path (empty.run before) operations) ∧
      (∀ old new options place later,
        rename old new options (empty.run before) = .ok place later →
          Replaces (empty.run before) later old new options place) ∧
      ∀ old new options failure later,
        rename old new options (empty.run before) = .error failure later →
          later = empty.run before := by
  have hagrees := agrees_run before
  refine ⟨hagrees.numbered, ?_, ?_, ?_⟩
  · intro operations hclear
    exact keeps_run _ hclear
  · intro old new options place later hrename
    exact hagrees.replaces_rename hrename
  · intro old new options failure later hrename
    exact eq_of_rename_eq_error hrename

/-- A document gives its place to one page and this page to another one, and between the two a page
would have the name of the film. The film keeps its number, and the last page has the options that
the document had. -/
theorem numbers_stay_page : let before : List Operation :=
      [.register "film.mov", .registerWithOptions "talk.pdf" ["-loop", "1"], .register "talk.wav"]
    let operations : List Operation :=
      [.rename "talk.pdf" "page.jpg" none, .rename "page.jpg" "film.mov" none,
        .rename "page.jpg" "last.jpg" none]
    .clear ∉ operations ∧ ¬ Renames "film.mov" (empty.run before) operations ∧
      ((empty.run before).run operations).indexOf? "film.mov" = some 0 ∧
      ((empty.run before).run operations).optionsOf? "last.jpg" = some ["-loop", "1"] := by
  intro before operations
  have hclear : Operation.clear ∉ operations := by decide +kernel
  have hspared : ¬ Renames "film.mov" (empty.run before) operations := by
    simp [operations, Renames, Operation.Renames]
  refine ⟨hclear, hspared, ?_, by decide +kernel⟩
  have hfilm : (empty.run before).indexOf? "film.mov" = some 0 := by decide +kernel
  exact ((numbers_stay before).2.1 operations hclear).number "film.mov" 0 hfilm hspared

end EpisodeCut.InputTable
