import EpisodeCut.Registry.Table

/-!
# Tables whose index agrees

Where the index of a table agrees with its entries, no file stands twice among them
(`Agrees.nodup_paths`), and the index finds what a search of the entries finds
(`Agrees.indexOf?_eq_findIdx?`). What each operation does to the numbers and the options of all
files is said here file by file.
-/

set_option autoImplicit false

namespace EpisodeCut.InputTable

variable {table : InputTable} {path other : String}

theorem Agrees.nodup_paths (agrees : table.Agrees) : table.paths.Nodup := by
  rw [List.Nodup, List.pairwise_iff_getElem]
  intro i j hi hj hlt heq
  -- A path in two places would have two numbers.
  have hfirst := (agrees table.paths[i] i).2 (List.getElem?_eq_getElem hi)
  have hsecond := (agrees table.paths[j] j).2 (List.getElem?_eq_getElem hj)
  rw [heq, hsecond] at hfirst
  cases hfirst
  omega

theorem Agrees.indexOf?_eq_none_iff (agrees : table.Agrees) :
    table.indexOf? path = none ↔ path ∉ table.paths := by
  constructor
  · exact agrees.not_mem
  · intro hfresh
    cases hindex : table.indexOf? path with
    | none => rfl
    | some place => exact absurd (List.mem_of_getElem? ((agrees path place).1 hindex)) hfresh

/-- The index finds what a search of the entries from the front would find. -/
theorem Agrees.indexOf?_eq_findIdx? (agrees : table.Agrees) (path : String) :
    table.indexOf? path = table.paths.findIdx? (· == path) := by
  cases hsearch : table.paths.findIdx? (· == path) with
  | none =>
    rw [agrees.indexOf?_eq_none_iff]
    intro hmem
    simpa using List.findIdx?_eq_none_iff.1 hsearch path hmem
  | some place =>
    obtain ⟨hplace, hpath, -⟩ := List.findIdx?_eq_some_iff_getElem.1 hsearch
    rw [agrees, List.getElem?_eq_getElem hplace, beq_iff_eq.1 hpath]

theorem Agrees.entries_of_indexOf? (agrees : table.Agrees) {place : Nat}
    (h : table.indexOf? path = some place) :
    table.entries[place]? = some ⟨path, (table.optionsOf? path).getD []⟩ := by
  have hpath := (agrees path place).1 h
  rw [paths, List.getElem?_map, Option.map_eq_some_iff] at hpath
  obtain ⟨entry, hentry, rfl⟩ := hpath
  simp only [optionsOf?, h, hentry, Option.bind_some, Option.map_some, Option.getD_some]

theorem Agrees.lt_length (agrees : table.Agrees) {place : Nat}
    (h : table.indexOf? path = some place) : place < table.entries.length :=
  (List.getElem?_eq_some_iff.1 (agrees.entries_of_indexOf? h)).1

theorem Agrees.exists_optionsOf? (agrees : table.Agrees) {place : Nat}
    (h : table.indexOf? path = some place) : ∃ options, table.optionsOf? path = some options := by
  rw [optionsOf?, h, Option.bind_some, agrees.entries_of_indexOf? h]
  exact ⟨_, rfl⟩

theorem optionsOf?_eq_none (h : table.indexOf? path = none) : table.optionsOf? path = none := by
  rw [optionsOf?, h, Option.bind_none]

/-- Changing the entry with the number of a file is changing the one entry that bears its name. -/
theorem Agrees.modify_eq_map (agrees : table.Agrees) {place : Nat}
    (h : table.indexOf? path = some place) (f : InputEntry → InputEntry) :
    table.entries.modify place f =
      table.entries.map fun entry => if entry.path = path then f entry else entry := by
  apply List.ext_getElem?
  intro i
  rw [List.getElem?_modify, List.getElem?_map]
  cases hentry : table.entries[i]? with
  | none => simp
  | some entry =>
    have hi : table.paths[i]? = some entry.path := by rw [paths, List.getElem?_map, hentry]; rfl
    by_cases hplace : place = i
    · subst hplace
      rw [(agrees path place).1 h] at hi
      simp [Option.some.inj hi]
    · have hdiffers : entry.path ≠ path := by
        rintro rfl
        rw [(agrees entry.path i).2 hi] at h
        exact hplace (Option.some.inj h).symm
      simp [hplace, hdiffers]

theorem entries_withOptions (table : InputTable) (place : Nat) (options : Option (List String)) :
    (table.withOptions place options).entries =
      table.entries.modify place fun entry => ⟨entry.path, options.getD entry.options⟩ := by
  cases options with
  | none => exact (List.modify_id _ _).symm
  | some options => rfl

theorem entries_withName_withOptions (table : InputTable) (place : Nat) (old new : String)
    (options : Option (List String)) :
    ((table.withName place old new).withOptions place options).entries =
      table.entries.modify place fun entry => ⟨new, options.getD entry.options⟩ := by
  rw [entries_withOptions, withName, List.modify_modify_eq]
  rfl

/-- What a successful rename does: every entry stays in its place, and only that of the renamed file
changes. -/
theorem Agrees.rename_eq_ok (agrees : table.Agrees) {renamed : InputTable} {old new : String}
    {options : Option (List String)} {place : Nat}
    (h : InputTable.rename old new options table = .ok place renamed) :
    table.indexOf? old = some place ∧ (old = new ∨ table.indexOf? new = none) ∧
      renamed.entries = table.entries.map fun entry =>
        if entry.path = old then ⟨new, options.getD entry.options⟩ else entry := by
  rcases rename_cases table old new options with
    ⟨found, hold, hsame, hrename⟩ | ⟨found, hold, -, hnew, hrename⟩ | ⟨failure, -, hrename⟩
  · rw [hrename] at h
    cases h
    refine ⟨hold, Or.inl hsame, ?_⟩
    rw [entries_withOptions, agrees.modify_eq_map hold]
    apply List.map_congr_left
    intro entry _
    subst hsame
    split
    · next hpath => rw [hpath]
    · rfl
  · rw [hrename] at h
    cases h
    refine ⟨hold, Or.inr hnew, ?_⟩
    rw [entries_withName_withOptions, agrees.modify_eq_map hold]
  · rw [hrename] at h
    cases h

/-! ## Numbers and options after a change -/

theorem optionsOf?_withOptions (table : InputTable) (place : Nat) (options : Option (List String))
    (path : String) : (table.withOptions place options).optionsOf? path =
      if table.indexOf? path = some place then (table.optionsOf? path).map fun old => options.getD old
      else table.optionsOf? path := by
  cases options with
  | none => simp [withOptions]
  | some options =>
    simp only [optionsOf?, indexOf?_withOptions]
    cases hindex : table.indexOf? path with
    | none => simp
    | some found =>
      simp only [withOptions, Option.bind_some, List.getElem?_modify, Option.some.injEq]
      by_cases hplace : found = place
      · subst hplace
        cases table.entries[found]? <;> simp
      · cases table.entries[found]? <;> simp [hplace, Ne.symm hplace]

theorem Agrees.optionsOf?_withFile (agrees : table.Agrees) (path other : String) :
    (table.withFile path).optionsOf? other =
      if other = path then some [] else table.optionsOf? other := by
  rw [optionsOf?, indexOf?_withFile]
  by_cases hother : other = path
  · simp [hother, InputTable.withFile]
  · rw [if_neg hother, if_neg hother, optionsOf?]
    cases hindex : table.indexOf? other with
    | none => rfl
    | some place =>
      rw [Option.bind_some, Option.bind_some, InputTable.withFile,
        List.getElem?_append_left (agrees.lt_length hindex)]

theorem Agrees.optionsOf?_withName (agrees : table.Agrees) {place : Nat} {old new : String}
    (found : table.indexOf? old = some place) (path : String) :
    (table.withName place old new).optionsOf? path =
      if path = new then table.optionsOf? old else if path = old then none
      else table.optionsOf? path := by
  rw [optionsOf?, indexOf?_withName]
  by_cases hnew : path = new
  · rw [if_pos hnew, if_pos hnew, Option.bind_some, optionsOf?, found, Option.bind_some,
      InputTable.withName, List.getElem?_modify, agrees.entries_of_indexOf? found]
    simp
  · rw [if_neg hnew, if_neg hnew]
    by_cases hold : path = old
    · rw [if_pos hold, if_pos hold, Option.bind_none]
    · rw [if_neg hold, if_neg hold, optionsOf?]
      cases hindex : table.indexOf? path with
      | none => rfl
      | some other =>
        -- Another file stands in another place.
        have hother : place ≠ other := by
          rintro rfl
          have hpath := (agrees path place).1 hindex
          rw [(agrees old place).1 found] at hpath
          exact hold (Option.some.inj hpath).symm
        rw [Option.bind_some, Option.bind_some, InputTable.withName,
          List.getElem?_modify]
        simp [hother]

/-! ## Numbers and options after an operation -/

theorem indexOf?_register (table : InputTable) (path other : String) :
    ((register path).after table).indexOf? other =
      if other = path then some ((table.indexOf? path).getD table.entries.length)
      else table.indexOf? other := by
  cases hindex : table.indexOf? path with
  | some place =>
    rw [Action.after_of_ok (register_of_some hindex)]
    split
    · next hsame => rw [hsame, hindex, Option.getD_some]
    · rfl
  | none =>
    rw [Action.after_of_ok (register_of_none hindex), indexOf?_withFile, Option.getD_none]

theorem entries_register (table : InputTable) (path : String) :
    ((register path).after table).entries =
      if table.indexOf? path = none then table.entries ++ [⟨path, []⟩] else table.entries := by
  cases hindex : table.indexOf? path with
  | some place =>
    rw [Action.after_of_ok (register_of_some hindex), if_neg nofun]
  | none =>
    rw [Action.after_of_ok (register_of_none hindex), if_pos rfl, withFile]

theorem paths_register (table : InputTable) (path : String) :
    ((register path).after table).paths =
      if table.indexOf? path = none then table.paths ++ [path] else table.paths := by
  cases hindex : table.indexOf? path with
  | some place =>
    rw [Action.after_of_ok (register_of_some hindex), if_neg nofun]
  | none =>
    rw [Action.after_of_ok (register_of_none hindex), if_pos rfl, paths_withFile]

theorem Agrees.entries_registerWithOptions (agrees : table.Agrees) (path : String)
    (options : List String) :
    ((InputTable.registerWithOptions path options).after table).entries =
      ((InputTable.register path).after table).entries.map fun entry =>
        if entry.path = path then ⟨entry.path, options⟩ else entry := by
  obtain ⟨place, hplace, hafter⟩ := registerWithOptions_eq table path options
  rw [hafter, entries_withOptions, (agrees.register path).modify_eq_map hplace]
  rfl

/-- A file that is registered keeps its options, or has none yet. -/
theorem Agrees.optionsOf?_register (agrees : table.Agrees) (path other : String) :
    ((InputTable.register path).after table).optionsOf? other =
      if other = path then some ((table.optionsOf? other).getD []) else table.optionsOf? other := by
  cases hindex : table.indexOf? path with
  | some place =>
    rw [Action.after_of_ok (register_of_some hindex)]
    split
    · next hsame =>
      obtain ⟨options, hoptions⟩ := agrees.exists_optionsOf? hindex
      rw [hsame, hoptions, Option.getD_some]
    · rfl
  | none =>
    rw [Action.after_of_ok (register_of_none hindex), agrees.optionsOf?_withFile]
    split
    · next hsame => rw [hsame, optionsOf?_eq_none hindex, Option.getD_none]
    · rfl

theorem paths_registerWithOptions (table : InputTable) (path : String) (options : List String) :
    ((registerWithOptions path options).after table).paths =
      ((register path).after table).paths := by
  obtain ⟨place, -, hafter⟩ := registerWithOptions_eq table path options
  rw [hafter, paths_withOptions]

theorem Agrees.optionsOf?_registerWithOptions (agrees : table.Agrees) (path other : String)
    (options : List String) :
    ((InputTable.registerWithOptions path options).after table).optionsOf? other =
      if other = path then some options else table.optionsOf? other := by
  obtain ⟨place, hplace, hafter⟩ := registerWithOptions_eq table path options
  rw [hafter, optionsOf?_withOptions, agrees.optionsOf?_register]
  by_cases hother : other = path
  · subst hother
    rw [if_pos hplace, if_pos rfl, if_pos rfl, Option.map_some, Option.getD_some]
  · -- The place is that of the file, so it is that of no other one.
    have hapart : ((InputTable.register path).after table).indexOf? other ≠ some place := by
      intro hsame
      have hagrees := agrees.register path
      have hpath := (hagrees other place).1 hsame
      rw [(hagrees path place).1 hplace] at hpath
      exact hother (Option.some.inj hpath).symm
    rw [if_neg hapart, if_neg hother, if_neg hother]

end EpisodeCut.InputTable
