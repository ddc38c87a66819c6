import EpisodeCut.Proofs.Registry.Table
import EpisodeCut.Registry

/-!
# Places in the registry

The number of a file is its place among the registered paths (`indexOf?_eq_some_iff`), and the entry
at that place holds the file's options (`entries_of_indexOf?`). Registering a file leaves the paths
as they are or appends the file (`paths_register`); renaming changes one entry in its place
(`rename_eq_ok`).
-/

set_option autoImplicit false

namespace EpisodeCut.Registry

variable {registry : Registry} {path : String}

/-- No file is registered twice. -/
theorem distinct (registry : Registry) : (registry.entries.map InputEntry.path).Nodup :=
  registry.agrees.nodup_paths

/-- A file has the number `i` exactly when it is the path in place `i`. -/
theorem indexOf?_eq_some_iff {i : Nat} :
    registry.indexOf? path = some i ↔ registry.paths[i]? = some path :=
  registry.agrees path i

theorem indexOf?_eq_none_iff : registry.indexOf? path = none ↔ path ∉ registry.paths :=
  registry.agrees.indexOf?_eq_none_iff

theorem exists_indexOf?_of_mem (h : path ∈ registry.paths) :
    ∃ i, registry.indexOf? path = some i := by
  cases hi : registry.indexOf? path with
  | none => exact absurd h (indexOf?_eq_none_iff.1 hi)
  | some i => exact ⟨i, rfl⟩

theorem mem_paths_of_indexOf? {i : Nat} (h : registry.indexOf? path = some i) :
    path ∈ registry.paths :=
  List.mem_of_getElem? (indexOf?_eq_some_iff.1 h)

/-- The entry in the place of a file holds the file with its options. -/
theorem entries_of_indexOf? {i : Nat} (h : registry.indexOf? path = some i) :
    registry.entries[i]? = some ⟨path, (registry.optionsOf? path).getD []⟩ :=
  registry.agrees.entries_of_indexOf? h

/-! ## Paths after each operation -/

theorem paths_register (registry : Registry) (path : String) :
    (registry.register path).paths =
      if path ∈ registry.paths then registry.paths else registry.paths ++ [path] := by
  have hpaths : (registry.register path).paths =
      if registry.indexOf? path = none then registry.paths ++ [path] else registry.paths :=
    InputTable.paths_register _ _
  simp only [hpaths, indexOf?_eq_none_iff, ite_not]

theorem mem_paths_register {other : String} :
    other ∈ (registry.register path).paths ↔ other ∈ registry.paths ∨ other = path := by
  rw [paths_register]
  split
  · next hmem =>
    constructor
    · exact Or.inl
    · rintro (h | rfl)
      · exact h
      · exact hmem
  · rw [List.mem_append, List.mem_singleton]

theorem paths_registerWithOptions (registry : Registry) (path : String) (options : List String) :
    (registry.registerWithOptions path options).paths = (registry.register path).paths :=
  InputTable.paths_registerWithOptions _ _ _

/-! ## Entries after each operation -/

theorem entries_register (registry : Registry) (path : String) :
    (registry.register path).entries =
      if registry.indexOf? path = none then registry.entries ++ [⟨path, []⟩]
      else registry.entries :=
  InputTable.entries_register _ _

theorem entries_registerWithOptions (registry : Registry) (path : String) (options : List String) :
    (registry.registerWithOptions path options).entries =
      (registry.register path).entries.map fun entry =>
        if entry.path = path then ⟨entry.path, options⟩ else entry :=
  registry.agrees.entries_registerWithOptions path options

/-- A rename of the registry is one of its table. -/
theorem exists_rename_eq_ok {old new : String} {options : Option (List String)}
    {renamed : Registry} (h : registry.rename old new options = .ok renamed) :
    ∃ place, InputTable.rename old new options registry.toInputTable =
      .ok place renamed.toInputTable := by
  rw [rename] at h
  cases hrename : InputTable.rename old new options registry.toInputTable with
  | error failure table =>
    rw [Action.answer_of_error hrename] at h
    cases h
  | ok place table =>
    rw [Action.answer_of_ok hrename] at h
    cases h
    refine ⟨place, ?_⟩
    simp only [Action.after_of_ok hrename]

/-- What a successful rename does: every entry stays in its place, and only that of the renamed file
changes. -/
theorem rename_eq_ok {old new : String} {options : Option (List String)} {renamed : Registry}
    (h : registry.rename old new options = .ok renamed) :
    old ∈ registry.paths ∧ (old = new ∨ new ∉ registry.paths) ∧
      renamed.entries = registry.entries.map fun entry =>
        if entry.path = old then ⟨new, options.getD entry.options⟩ else entry := by
  obtain ⟨number, hrenamed⟩ := exists_rename_eq_ok h
  obtain ⟨hold, hnew, hentries⟩ := registry.agrees.rename_eq_ok hrenamed
  exact ⟨mem_paths_of_indexOf? hold, hnew.imp_right indexOf?_eq_none_iff.1, hentries⟩

/-- A rename succeeds exactly when the old name is registered and the new one is not, unless the two
are the same. -/
theorem exists_rename_iff {registry : Registry} {old new : String}
    {options : Option (List String)} :
    (∃ renamed, registry.rename old new options = .ok renamed) ↔
      registry.indexOf? old ≠ none ∧ (old = new ∨ registry.indexOf? new = none) := by
  constructor
  · rintro ⟨renamed, h⟩
    obtain ⟨hold, hnew, -⟩ := rename_eq_ok h
    refine ⟨?_, hnew.imp_right indexOf?_eq_none_iff.2⟩
    intro hnone
    exact indexOf?_eq_none_iff.1 hnone hold
  · rintro ⟨hold, hnew⟩
    rw [rename]
    rcases InputTable.rename_cases registry.toInputTable old new options with
      ⟨place, -, -, h⟩ | ⟨place, -, -, -, h⟩ | ⟨failure, hrefused, h⟩
    · rw [Action.answer_of_ok h]
      exact ⟨_, rfl⟩
    · rw [Action.answer_of_ok h]
      exact ⟨_, rfl⟩
    · rcases hrefused with hnone | ⟨hdiffers, htaken⟩
      · exact absurd hnone hold
      · exact absurd (hnew.resolve_left hdiffers) htaken

/-- What a successful rename does to the paths. -/
theorem paths_of_rename {old new : String} {options : Option (List String)} {renamed : Registry}
    (h : registry.rename old new options = .ok renamed) :
    renamed.paths = registry.paths.map fun p => if p = old then new else p := by
  obtain ⟨-, -, hentries⟩ := rename_eq_ok h
  rw [paths, hentries, List.map_map, paths, List.map_map]
  apply List.map_congr_left
  intro entry _
  simp only [Function.comp_apply]
  split <;> rfl

end EpisodeCut.Registry
