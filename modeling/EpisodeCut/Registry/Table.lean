import EpisodeCut.Action

/-!
# The table of input files

The files that the renderer opens, in order, and beside them an index that has the number of a file
under its name. A file is found through the index, without a search, so the index has to have the
number of every entry and of nothing else (`InputTable.Agrees`). Nothing but the operations keeps
the two in step: each of them changes the entries and the index one after the other.
-/

set_option autoImplicit false

namespace EpisodeCut

/-- An input file and the options that stand before it on the command line. -/
structure InputEntry where
  path : String
  options : List String
  deriving DecidableEq, Repr

/-! ## The index -/

/-- Numbers under names, no two of them under one name. -/
structure NameIndex where
  pairs : List (String × Nat)
  deriving DecidableEq, Repr

namespace NameIndex

/-- The index without names. -/
def empty : NameIndex := ⟨[]⟩

/-- The number under a name. -/
def find? (index : NameIndex) (name : String) : Option Nat :=
  (index.pairs.find? (·.1 == name)).map Prod.snd

/-- Remove a name. -/
def erase (index : NameIndex) (name : String) : NameIndex :=
  ⟨index.pairs.filter (·.1 != name)⟩

/-- Put a number under a name, in the place of the one that stands there. -/
def insert (index : NameIndex) (name : String) (number : Nat) : NameIndex :=
  ⟨(name, number) :: (index.erase name).pairs⟩

@[simp] theorem find?_empty (name : String) : empty.find? name = none := rfl

@[simp] theorem find?_erase (index : NameIndex) (name other : String) :
    (index.erase name).find? other = if other = name then none else index.find? other := by
  rw [find?, erase, List.find?_filter]
  split
  · next hsame =>
    subst hsame
    simp
  · next hdiffers =>
    -- A pair under the other name is not removed.
    have hkept : (fun pair : String × Nat =>
        decide ((pair.1 != name) = true ∧ (pair.1 == other) = true)) =
          fun pair => pair.1 == other := by
      funext pair
      by_cases hpair : pair.1 = other <;> simp [hpair, hdiffers]
    rw [hkept, find?]

@[simp] theorem find?_insert (index : NameIndex) (name other : String) (number : Nat) :
    (index.insert name number).find? other =
      if other = name then some number else index.find? other := by
  have hcons : (index.insert name number).find? other =
      if other = name then some number else (index.erase name).find? other := by
    rw [find?, insert, List.find?_cons]
    by_cases hother : other = name
    · simp [hother]
    · have hne : (name == other) = false := by simpa using Ne.symm hother
      simp only [hne, if_neg hother, find?]
  rw [hcons, find?_erase]
  split <;> rfl

end NameIndex

/-! ## The table -/

/-- Input files in the order of their numbers, and their numbers by name. -/
structure InputTable where
  entries : List InputEntry
  index : NameIndex
  deriving DecidableEq, Repr

namespace InputTable

/-- The table without files. -/
def empty : InputTable := ⟨[], .empty⟩

/-- The files in the order of their numbers. -/
def paths (table : InputTable) : List String :=
  table.entries.map InputEntry.path

/-- The number of a file, as the index has it. -/
def indexOf? (table : InputTable) (path : String) : Option Nat :=
  table.index.find? path

/-- The options of a file, found through the index. -/
def optionsOf? (table : InputTable) (path : String) : Option (List String) :=
  (table.indexOf? path).bind fun place => table.entries[place]?.map InputEntry.options

/-- Replace the options of an entry. -/
def setOptions (place : Nat) (options : List String) : Action InputTable Unit :=
  modify fun table =>
    { table with entries := table.entries.modify place fun entry => { entry with options := options } }

/-- Register a file, at the end if it is new. The answer is its number. -/
def register (path : String) : Action InputTable Nat := do
  let table ← get
  match table.indexOf? path with
  | some place => pure place
  | none =>
    let place := table.entries.length
    modify fun table => { table with entries := table.entries ++ [⟨path, []⟩] }
    modify fun table => { table with index := table.index.insert path place }
    pure place

/-- Register a file and replace its options. The answer is its number. -/
def registerWithOptions (path : String) (options : List String) : Action InputTable Nat := do
  let place ← register path
  setOptions place options
  pure place

/-- Let `new` take the place and the number of `old`. Options, where given, replace the options of
that place. A file can be renamed to itself, but not to another registered file. The answer is the
number. -/
def rename (old new : String) (options : Option (List String)) : Action InputTable Nat := do
  let table ← get
  match table.indexOf? old with
  | none => throw (.renameUnregistered old)
  | some place =>
    if old ≠ new then
      if (table.indexOf? new).isSome then throw (.renameTaken old new)
      modify fun table => { table with index := table.index.erase old }
      modify fun table => { table with index := table.index.insert new place }
      modify fun table =>
        { table with entries := table.entries.modify place fun entry => { entry with path := new } }
    match options with
    | some options => setOptions place options
    | none => pure ()
    pure place

/-- Forget all files. -/
def clear : Action InputTable Unit :=
  set empty

/-! ## The index agrees with the entries -/

/-- A name has a number in the index exactly when the entry with this number bears the name. -/
def Agrees (table : InputTable) : Prop :=
  ∀ path place, table.indexOf? path = some place ↔ table.paths[place]? = some path

theorem agrees_empty : empty.Agrees := by
  intro path place
  simp [empty, indexOf?, paths]

theorem Agrees.not_mem {table : InputTable} (agrees : table.Agrees) {path : String}
    (h : table.indexOf? path = none) : path ∉ table.paths := by
  intro hmem
  obtain ⟨place, hplace⟩ := List.mem_iff_getElem?.1 hmem
  rw [(agrees path place).2 hplace] at h
  cases h

/-- The table with the options of one entry replaced, if there are new ones. -/
def withOptions (table : InputTable) (place : Nat) : Option (List String) → InputTable
  | some options =>
    { table with entries := table.entries.modify place fun entry => { entry with options := options } }
  | none => table

/-- The table with one more file at the end. -/
def withFile (table : InputTable) (path : String) : InputTable :=
  ⟨table.entries ++ [⟨path, []⟩], table.index.insert path table.entries.length⟩

/-- The table with the file `new` in the place where `old` stood. -/
def withName (table : InputTable) (place : Nat) (old new : String) : InputTable :=
  ⟨table.entries.modify place fun entry => { entry with path := new },
    (table.index.erase old).insert new place⟩

theorem paths_withOptions (table : InputTable) (place : Nat) (options : Option (List String)) :
    (table.withOptions place options).paths = table.paths := by
  cases options with
  | none => rfl
  | some options =>
    apply List.ext_getElem?
    intro i
    simp only [withOptions, paths, List.getElem?_map, List.getElem?_modify]
    cases table.entries[i]? with
    | none => rfl
    | some entry => by_cases hplace : place = i <;> simp [hplace]

theorem paths_withFile (table : InputTable) (path : String) :
    (table.withFile path).paths = table.paths ++ [path] := by
  simp [withFile, paths]

theorem paths_withName (table : InputTable) (place : Nat) (old new : String) :
    (table.withName place old new).paths = table.paths.set place new := by
  apply List.ext_getElem?
  intro i
  simp only [withName, paths, List.getElem?_map, List.getElem?_modify, List.getElem?_set,
    List.length_map]
  by_cases hplace : place = i
  · subst hplace
    cases hentry : table.entries[place]? with
    | none => simp [List.getElem?_eq_none_iff.1 hentry]
    | some entry => simp [(List.getElem?_eq_some_iff.1 hentry).1]
  · cases table.entries[i]? <;> simp [hplace]

theorem indexOf?_withOptions (table : InputTable) (place : Nat) (options : Option (List String))
    (path : String) : (table.withOptions place options).indexOf? path = table.indexOf? path := by
  cases options <;> rfl

theorem indexOf?_withFile (table : InputTable) (path other : String) :
    (table.withFile path).indexOf? other =
      if other = path then some table.entries.length else table.indexOf? other :=
  NameIndex.find?_insert _ _ _ _

theorem indexOf?_withName (table : InputTable) (place : Nat) (old new path : String) :
    (table.withName place old new).indexOf? path =
      if path = new then some place else if path = old then none else table.indexOf? path := by
  simp only [withName, indexOf?, NameIndex.find?_insert, NameIndex.find?_erase]

theorem Agrees.withOptions {table : InputTable} (agrees : table.Agrees) (place : Nat)
    (options : Option (List String)) : (table.withOptions place options).Agrees := by
  intro path other
  rw [paths_withOptions, indexOf?_withOptions, agrees]

/-- A new file gets the number of the place at the end, where it is put. -/
theorem Agrees.withFile {table : InputTable} (agrees : table.Agrees) {path : String}
    (fresh : table.indexOf? path = none) : (table.withFile path).Agrees := by
  intro other place
  have hfresh := agrees.not_mem fresh
  have hlength : table.entries.length = table.paths.length := (List.length_map _).symm
  rw [indexOf?_withFile, paths_withFile, hlength]
  by_cases hother : other = path
  · subst hother
    rw [if_pos rfl, Option.some.injEq]
    constructor
    · rintro rfl
      exact List.getElem?_concat_length
    · intro hplace
      rcases Nat.lt_trichotomy place table.paths.length with hlt | heq | hgt
      · rw [List.getElem?_append_left hlt] at hplace
        exact absurd (List.mem_of_getElem? hplace) hfresh
      · exact heq.symm
      · rw [List.getElem?_eq_none (by simp; omega)] at hplace
        cases hplace
  · rw [if_neg hother, agrees]
    rcases Nat.lt_or_ge place table.paths.length with hlt | hge
    · rw [List.getElem?_append_left hlt]
    · rw [List.getElem?_append_right hge, List.getElem?_eq_none hge]
      cases place - table.paths.length <;> simp [Ne.symm hother]

/-- A file that takes the place of another one takes its number, too. -/
theorem Agrees.withName {table : InputTable} (agrees : table.Agrees) {place : Nat}
    {old new : String} (found : table.indexOf? old = some place)
    (fresh : table.indexOf? new = none) : (table.withName place old new).Agrees := by
  intro path other
  have hold := (agrees old place).1 found
  have hfresh := agrees.not_mem fresh
  have hlength := (List.getElem?_eq_some_iff.1 hold).1
  rw [indexOf?_withName, paths_withName, List.getElem?_set]
  by_cases hplace : place = other
  · subst hplace
    rw [if_pos rfl, if_pos hlength, Option.some.injEq]
    by_cases hnew : path = new
    · simp [hnew]
    · rw [if_neg hnew]
      split
      · simp [Ne.symm hnew]
      · next hdiffers =>
        rw [agrees, hold, Option.some.injEq]
        exact ⟨fun h => absurd h.symm hdiffers, fun h => absurd h.symm hnew⟩
  · rw [if_neg hplace]
    by_cases hnew : path = new
    · rw [if_pos hnew, Option.some.injEq]
      exact ⟨fun h => absurd h hplace, fun h => absurd (List.mem_of_getElem? (hnew ▸ h)) hfresh⟩
    · rw [if_neg hnew]
      split
      · next hsame =>
        subst hsame
        rw [← agrees, found, Option.some.injEq]
        exact ⟨nofun, fun h => absurd h hplace⟩
      · exact agrees path other

/-! ## What the operations do -/

theorem register_of_some {table : InputTable} {path : String} {place : Nat}
    (h : table.indexOf? path = some place) : register path table = .ok place table := by
  rw [register, Action.get_bind, h]
  rfl

theorem register_of_none {table : InputTable} {path : String} (h : table.indexOf? path = none) :
    register path table = .ok table.entries.length (table.withFile path) := by
  rw [register, Action.get_bind, h]
  rfl

theorem registerWithOptions_of_ok {table registered : InputTable} {path : String}
    {options : List String} {place : Nat} (h : register path table = .ok place registered) :
    registerWithOptions path options table =
      .ok place (registered.withOptions place (some options)) := by
  rw [registerWithOptions, Action.bind_eq_of_ok h]
  rfl

/-- Registering with options registers, and then replaces the options of the one file. -/
theorem registerWithOptions_eq (table : InputTable) (path : String) (options : List String) :
    ∃ place, ((register path).after table).indexOf? path = some place ∧
      (registerWithOptions path options).after table =
        ((register path).after table).withOptions place (some options) := by
  cases hindex : table.indexOf? path with
  | some place =>
    have hregister := register_of_some hindex
    refine ⟨place, ?_, ?_⟩
    · rw [Action.after_of_ok hregister, hindex]
    · rw [Action.after_of_ok hregister, Action.after_of_ok (registerWithOptions_of_ok hregister)]
  | none =>
    have hregister := register_of_none hindex
    refine ⟨table.entries.length, ?_, ?_⟩
    · rw [Action.after_of_ok hregister, indexOf?_withFile, if_pos rfl]
    · rw [Action.after_of_ok hregister, Action.after_of_ok (registerWithOptions_of_ok hregister)]

theorem rename_of_none {table : InputTable} {old new : String} {options : Option (List String)}
    (h : table.indexOf? old = none) :
    rename old new options table = .error (.renameUnregistered old) table := by
  rw [rename, Action.get_bind, h]
  rfl

theorem rename_self {table : InputTable} {old : String} {options : Option (List String)}
    {place : Nat} (h : table.indexOf? old = some place) :
    rename old old options table = .ok place (table.withOptions place options) := by
  rw [rename, Action.get_bind, h]
  cases options <;> simp <;> rfl

theorem rename_of_taken {table : InputTable} {old new : String} {options : Option (List String)}
    {place other : Nat} (found : table.indexOf? old = some place) (differs : old ≠ new)
    (taken : table.indexOf? new = some other) :
    rename old new options table = .error (.renameTaken old new) table := by
  rw [rename, Action.get_bind, found]
  simp [differs, taken]
  rfl

theorem rename_of_fresh {table : InputTable} {old new : String} {options : Option (List String)}
    {place : Nat} (found : table.indexOf? old = some place) (differs : old ≠ new)
    (fresh : table.indexOf? new = none) :
    rename old new options table =
      .ok place ((table.withName place old new).withOptions place options) := by
  rw [rename, Action.get_bind, found]
  simp [differs, fresh]
  cases options <;> rfl

/-- A file is renamed to itself, or to a new name in its place, or everything is left as it is. -/
theorem rename_cases (table : InputTable) (old new : String) (options : Option (List String)) :
    (∃ place, table.indexOf? old = some place ∧ old = new ∧
      rename old new options table = .ok place (table.withOptions place options)) ∨
    (∃ place, table.indexOf? old = some place ∧ old ≠ new ∧ table.indexOf? new = none ∧
      rename old new options table =
        .ok place ((table.withName place old new).withOptions place options)) ∨
    ∃ failure, (table.indexOf? old = none ∨ old ≠ new ∧ table.indexOf? new ≠ none) ∧
      rename old new options table = .error failure table := by
  cases hold : table.indexOf? old with
  | none => exact Or.inr (Or.inr ⟨_, Or.inl rfl, rename_of_none hold⟩)
  | some place =>
    by_cases hsame : old = new
    · subst hsame
      exact Or.inl ⟨place, rfl, rfl, rename_self hold⟩
    · cases hnew : table.indexOf? new with
      | none => exact Or.inr (Or.inl ⟨place, rfl, hsame, rfl, rename_of_fresh hold hsame hnew⟩)
      | some other =>
        exact Or.inr (Or.inr ⟨_, Or.inr ⟨hsame, nofun⟩, rename_of_taken hold hsame hnew⟩)

/-! ## Every operation keeps the two in step -/

theorem Agrees.register {table : InputTable} (agrees : table.Agrees) (path : String) :
    ((InputTable.register path).after table).Agrees := by
  cases hpath : table.indexOf? path with
  | some place =>
    rw [Action.after_of_ok (register_of_some hpath)]
    exact agrees
  | none =>
    rw [Action.after_of_ok (register_of_none hpath)]
    exact agrees.withFile hpath

theorem Agrees.registerWithOptions {table : InputTable} (agrees : table.Agrees) (path : String)
    (options : List String) :
    ((InputTable.registerWithOptions path options).after table).Agrees := by
  obtain ⟨place, -, hafter⟩ := registerWithOptions_eq table path options
  rw [hafter]
  exact (agrees.register path).withOptions place _

theorem Agrees.rename {table : InputTable} (agrees : table.Agrees) (old new : String)
    (options : Option (List String)) :
    ((InputTable.rename old new options).after table).Agrees := by
  rcases rename_cases table old new options with
    ⟨place, -, -, h⟩ | ⟨place, hold, -, hnew, h⟩ | ⟨failure, -, h⟩
  · rw [Action.after_of_ok h]
    exact agrees.withOptions place options
  · rw [Action.after_of_ok h]
    exact (agrees.withName hold hnew).withOptions place options
  · rw [Action.after_of_error h]
    exact agrees

end InputTable

end EpisodeCut
