/-!
# File paths

A path is kept as the text that it was given in. Its components are the names between slashes;
empty names and single dots do not count, but a dot at the very beginning does. Two paths are the
same when their components are (`Path.same`), while every operation here keeps the text of what it
does not touch (`Path.parent?`, `Path.join`).
-/

set_option autoImplicit false

namespace EpisodeCut

/-- The text of a file path. -/
abbrev Path := String

namespace Path

/-- One component of a path. -/
inductive Component where
  | root
  | here
  | up
  | name (text : String)
  deriving DecidableEq, Repr

/-- The texts between the slashes of a path, of which there is always a first one. -/
def pieces (path : Path) : String × List String :=
  match path.toList.splitOn '/' with
  | [] => ("", [])
  | first :: rest => (String.ofList first, rest.map String.ofList)

/-- Pieces after the first that stand for no component. -/
def isFiller (piece : String) : Bool :=
  piece == "" || piece == "."

/-- The component of a piece that is no filler. -/
def Component.ofPiece (piece : String) : Component :=
  if piece == ".." then .up else .name piece

/-- The component, if any, that the first piece of a path stands for. -/
def leading (path : Path) (first : String) : List Component :=
  if path == "" then []
  else if first == "" then [.root]
  else if first == "." then [.here]
  else [Component.ofPiece first]

/-- The components of a path. -/
def components (path : Path) : List Component :=
  let parts := pieces path
  leading path parts.1 ++ (parts.2.filter (!isFiller ·)).map Component.ofPiece

/-- Whether a path ends in a single dot after a slash, whatever slashes follow. -/
def endsInDot (path : Path) : Bool :=
  ((pieces path).2.filter (· != "")).getLast? == some "."

/-- Equality of paths component by component. -/
def same (path other : Path) : Bool :=
  path.components == other.components

/-- The list `pieces` without trailing fillers. -/
def dropFillers (pieces : List String) : List String :=
  (pieces.reverse.dropWhile isFiller).reverse

/-- The path without its last component; the root and the empty path have no parent. -/
def parent? (path : Path) : Option Path :=
  let parts := pieces path
  match dropFillers parts.2 with
  | [] => if parts.1 == "" then none else some ""
  | rest =>
    match dropFillers rest.dropLast with
    -- The last component was the only one after the first piece.
    | [] => some (if parts.1 == "" then "/" else parts.1)
    | kept => some ("/".intercalate (parts.1 :: kept))

/-- The last component, when it is a name. -/
def fileName? (path : Path) : Option String :=
  match path.components.getLast? with
  | some (.name text) => some text
  | _ => none

/-- A file name divided at its last dot, unless that dot begins the name. -/
def splitAtDot (name : String) : String × Option String :=
  match (name.toList.splitOn '.').reverse with
  | last :: before :: rest =>
    let stem := ['.'].intercalate (before :: rest).reverse
    if stem.isEmpty then (name, none) else (String.ofList stem, some (String.ofList last))
  | _ => (name, none)

/-- The file name without its extension. -/
def fileStem? (path : Path) : Option String :=
  path.fileName?.map fun name => (splitAtDot name).1

/-- What follows the last dot of the file name. -/
def extension? (path : Path) : Option String :=
  path.fileName?.bind fun name => (splitAtDot name).2

/-- `name` inside the directory `dir`; an absolute `name` stands for itself. -/
def join (dir : Path) (name : String) : Path :=
  if name.startsWith "/" || dir == "" then name
  else if dir.endsWith "/" then dir ++ name
  else dir ++ "/" ++ name

/-- `name` in the place of the path's file name. -/
def withFileName (path : Path) (name : String) : Path :=
  match path.fileName? with
  | some _ => (path.parent?.getD "").join name
  | none => path.join name

end Path

end EpisodeCut
