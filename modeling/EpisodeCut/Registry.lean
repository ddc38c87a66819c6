import EpisodeCut.Registry.Table

/-!
# The registry of input files

A table of input files whose index agrees with its entries. The place of a file is its number in the
filter program, so places never change: a new file goes to the end (`Registry.register`), and a file
that takes the place of another one keeps its number (`Registry.rename`). No file is registered
twice.
-/

set_option autoImplicit false

namespace EpisodeCut

/-- Input files in the order of their numbers, without repetition. -/
structure Registry extends InputTable where
  agrees : toInputTable.Agrees
  deriving DecidableEq, Repr

namespace Registry

/-- The registry without files. -/
def empty : Registry := ⟨⟨[], .empty⟩, InputTable.agrees_empty⟩

instance : Inhabited Registry := ⟨empty⟩

/-- The number of files. -/
def size (registry : Registry) : Nat :=
  registry.entries.length

/-- The files in the order of their numbers. -/
def paths (registry : Registry) : List String :=
  registry.entries.map InputEntry.path

/-- The number of a file. -/
def indexOf? (registry : Registry) (path : String) : Option Nat :=
  registry.toInputTable.indexOf? path

/-- The options of a file. -/
def optionsOf? (registry : Registry) (path : String) : Option (List String) :=
  registry.toInputTable.optionsOf? path

/-- Register a file, at the end if it is new. -/
def register (registry : Registry) (path : String) : Registry :=
  ⟨(InputTable.register path).after registry.toInputTable, registry.agrees.register path⟩

/-- Register a file and replace its options. -/
def registerWithOptions (registry : Registry) (path : String) (options : List String) : Registry :=
  ⟨(InputTable.registerWithOptions path options).after registry.toInputTable,
    registry.agrees.registerWithOptions path options⟩

/-- Let `new` take the place and the number of `old`. Options, where given, replace the options of
that place. A file can be renamed to itself, but not to another registered file. -/
def rename (registry : Registry) (old new : String) (options : Option (List String)) :
    Except Failure Registry :=
  ((InputTable.rename old new options).answer registry.toInputTable).map fun _ =>
    ⟨(InputTable.rename old new options).after registry.toInputTable,
      registry.agrees.rename old new options⟩

end Registry

end EpisodeCut
