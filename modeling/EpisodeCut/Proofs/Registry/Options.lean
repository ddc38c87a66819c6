import EpisodeCut.Proofs.Registry.Index

/-!
# Options in the registry

Options belong to a file. Registering a file leaves the options of all files as they are, and a new
file has none (`optionsOf?_register`); registering a file with options replaces those of this file
alone (`optionsOf?_registerWithOptions`).
-/

set_option autoImplicit false

namespace EpisodeCut.Registry

variable {registry : Registry} {path other : String}

/-- The place of a file holds its options. -/
theorem entries_of_optionsOf? {place : Nat} {options : List String}
    (hplace : registry.indexOf? path = some place) (h : registry.optionsOf? path = some options) :
    registry.entries[place]? = some ⟨path, options⟩ := by
  rw [entries_of_indexOf? hplace, h, Option.getD_some]

/-- A file that is registered keeps its options, or has none yet. -/
theorem optionsOf?_register (registry : Registry) (path other : String) :
    (registry.register path).optionsOf? other =
      if other = path then some ((registry.optionsOf? other).getD []) else
        registry.optionsOf? other :=
  registry.agrees.optionsOf?_register path other

theorem optionsOf?_registerWithOptions (registry : Registry) (path other : String)
    (options : List String) : (registry.registerWithOptions path options).optionsOf? other =
      if other = path then some options else registry.optionsOf? other :=
  registry.agrees.optionsOf?_registerWithOptions path other options

end EpisodeCut.Registry
