import EpisodeCut.Failure

/-!
# File trees

The files and directories that a run can reach. A path is followed name by name, from the root of
the tree if it is absolute and else from the directory in which the run takes place; the root is its
own parent, and every name on the way has to be a directory (`FileTree.walk`). Operations refuse what an operating system
refuses, with the same error: paths and names that are too long are refused as well
(`FileTree.refusal?`, `FileTree.follow`). A directory is modified when an entry of it appears or
disappears (`FileTree.touch`).
-/

set_option autoImplicit false

namespace EpisodeCut

/-- The names on the way from the root to a file or directory. -/
abbrev Location := List String

/-- A file or directory with the time of its last modification. -/
inductive FileNode where
  | directory (modified : Nat)
  | file (modified : Nat) (content : List UInt8)
  deriving DecidableEq, Repr

namespace FileNode

/-- The time of the last modification. -/
def modified : FileNode → Nat
  | .directory modified => modified
  | .file modified _ => modified

/-- Whether a node is a directory. -/
def isDirectory : FileNode → Bool
  | .directory _ => true
  | .file .. => false

/-- The node after an entry of it has appeared or disappeared at `now`; a file has none. -/
def touch (now : Nat) : FileNode → FileNode
  | .directory _ => .directory now
  | .file modified content => .file modified content

end FileNode

/-- Files and directories by location. The root itself is not listed. -/
structure FileTree where
  nodes : List (Location × FileNode)
  /-- The time of the last modification of the root. -/
  rootModified : Nat
  /-- Where relative paths begin. -/
  home : Location
  deriving DecidableEq, Repr, Inhabited

namespace FileTree

/-- The tree with the directories that lead to `home`, and nothing else. -/
def bare (home : Location) : FileTree where
  nodes := (List.range home.length).map fun above => (home.take (above + 1), .directory 0)
  rootModified := 0
  home := home

/-- The node at a location. -/
def node? (tree : FileTree) (location : Location) : Option FileNode :=
  if location.isEmpty then some (.directory tree.rootModified) else tree.nodes.lookup location

/-- Put a node at a location, in place of what is there. -/
def put (tree : FileTree) (location : Location) (node : FileNode) : FileTree :=
  { tree with nodes := (location, node) :: tree.nodes.filter (·.1 != location) }

/-- Remove what is at a location. -/
def erase (tree : FileTree) (location : Location) : FileTree :=
  { tree with nodes := tree.nodes.filter (·.1 != location) }

/-- Note that an entry of the directory at a location has appeared or disappeared at `now`. -/
def touch (tree : FileTree) (location : Location) (now : Nat) : FileTree :=
  if location.isEmpty then { tree with rootModified := now }
  else
    { tree with
      nodes := tree.nodes.map fun (place, node) =>
        (place, if place = location then node.touch now else node) }

/-- Put a node at a location where there is none. -/
def add (tree : FileTree) (location : Location) (node : FileNode) (now : Nat) : FileTree :=
  (tree.touch location.dropLast now).put location node

/-- Remove the node that is at a location. -/
def drop (tree : FileTree) (location : Location) (now : Nat) : FileTree :=
  (tree.touch location.dropLast now).erase location

/-- The length in bytes of the longest name. -/
def maxNameSize : Nat := 255

/-- The length in bytes of the longest path. -/
def maxPathSize : Nat := 4095

/-- Why a path is refused for its text alone, before it is followed. -/
def refusal? (path : Path) : Option OsError :=
  if path.toList.contains '\x00' then some .nulInPath
  else if maxPathSize < path.utf8ByteSize then some .nameTooLong
  else none

/-- Where a component leads from a directory. -/
def follow (location : Location) : Path.Component → Except OsError Location
  | .root => .ok []
  | .here => .ok location
  | .up => .ok location.dropLast
  | .name text =>
    if maxNameSize < text.utf8ByteSize then .error .nameTooLong else .ok (location ++ [text])

/-- Follow components from a location. What the last one leads to need not exist. -/
def walk (tree : FileTree) (location : Location) :
    List Path.Component → Except OsError Location
  | [] => .ok location
  | component :: rest =>
    match tree.node? location with
    | none => .error .notFound
    | some (.file ..) => .error .notDirectory
    | some (.directory _) =>
      match follow location component with
      | .error cause => .error cause
      | .ok next => tree.walk next rest

/-- Whether a path ends in a slash or a dot, which only a directory may. -/
def namesDirectory (path : Path) : Bool :=
  (Path.pieces path).2.getLast?.any Path.isFiller

/-- Where a path leads, if not to nothing. -/
def locate (tree : FileTree) (path : Path) : Except OsError Location :=
  match refusal? path with
  | some cause => .error cause
  | none => if path == "" then .error .notFound else tree.walk tree.home path.components

/-- What is at the end of a path. -/
def find (tree : FileTree) (path : Path) : Except OsError (Location × FileNode) :=
  match tree.locate path with
  | .error cause => .error cause
  | .ok location =>
    match tree.node? location with
    | none => .error .notFound
    | some node =>
      if namesDirectory path && !node.isDirectory then .error .notDirectory
      else .ok (location, node)

/-- Whether there is something at the end of a path. -/
def contains (tree : FileTree) (path : Path) : Bool :=
  (tree.find path).toOption.isSome

/-- The time of the last modification of what is at the end of a path. -/
def modified? (tree : FileTree) (path : Path) : Option Nat :=
  (tree.find path).toOption.map fun found => found.2.modified

/-- The content of a file. -/
def read (tree : FileTree) (path : Path) : Except OsError (List UInt8) :=
  match tree.find path with
  | .error cause => .error cause
  | .ok (_, .directory _) => .error .isDirectory
  | .ok (_, .file _ content) => .ok content

/-- The content of a file that has to be text. -/
def readText (tree : FileTree) (path : Path) : Except OsError String :=
  match tree.read path with
  | .error cause => .error cause
  | .ok content =>
    match String.fromUTF8? ⟨content.toArray⟩ with
    | some text => .ok text
    | none => .error .invalidText

/-- Create or overwrite a file at `now`, and set the time of its modification. -/
def write (tree : FileTree) (path : Path) (modified : Nat) (content : List UInt8) (now : Nat) :
    Except OsError FileTree :=
  match tree.locate path with
  | .error cause => .error cause
  | .ok location =>
    match tree.node? location with
    | some (.directory _) => .error .isDirectory
    | some (.file ..) =>
      if namesDirectory path then .error .notDirectory
      else .ok (tree.put location (.file modified content))
    | none =>
      if namesDirectory path then .error .isDirectory
      else .ok (tree.add location (.file modified content) now)

/-- Remove a file at `now`. -/
def remove (tree : FileTree) (path : Path) (now : Nat) : Except OsError FileTree :=
  match tree.find path with
  | .error cause => .error cause
  | .ok (_, .directory _) => .error .isDirectory
  | .ok (location, .file ..) => .ok (tree.drop location now)

/-- Create a directory in a directory that exists. -/
def makeDirectory (tree : FileTree) (components : List Path.Component) (now : Nat) :
    Except OsError FileTree :=
  match tree.walk tree.home components with
  | .error cause => .error cause
  | .ok location =>
    match tree.node? location with
    | some _ => .error .alreadyExists
    | none => .ok (tree.add location (.directory now) now)

/-- Whether components lead to a directory. -/
def leadsToDirectory (tree : FileTree) (components : List Path.Component) : Bool :=
  match tree.walk tree.home components with
  | .error _ => false
  | .ok location => (tree.node? location).any FileNode.isDirectory

/-- Create a directory and all directories above it that are missing. The directory is given by its
components with the last one in front, and `ending` is what its path has behind them. A directory
that exists is left alone. -/
def makeDirectoriesUp (now : Nat) :
    List Path.Component → List Path.Component → FileTree → FileTree × Except OsError Unit
  | [], _, tree => (tree, .ok ())
  | component :: above, ending, tree =>
    let components := (component :: above).reverse ++ ending
    let make (tree : FileTree) : FileTree × Except OsError Unit :=
      match tree.makeDirectory components now with
      | .ok tree => (tree, .ok ())
      | .error cause =>
        (tree, if tree.leadsToDirectory components then .ok () else .error cause)
    match tree.makeDirectory components now with
    -- Only a missing directory above is worth creating; then the attempt is repeated.
    | .error .notFound =>
      match makeDirectoriesUp now above [] tree with
      | (tree, .ok ()) => make tree
      | failed => failed
    | _ => make tree

/-- Create a directory and all directories above it that are missing. A dot behind the name of the
directory can only be followed once the directory exists. -/
def makeDirectories (tree : FileTree) (path : Path) (now : Nat) :
    FileTree × Except OsError Unit :=
  match refusal? path with
  | some cause => (tree, .error cause)
  | none =>
    makeDirectoriesUp now path.components.reverse (if path.endsInDot then [.here] else []) tree

/-- The tree with a file and the directories that lead to it, as far as they can be created. -/
def plant (tree : FileTree) (path : Path) (content : List UInt8) : FileTree :=
  let grown := match path.parent? with
    | none => tree
    | some parent => (tree.makeDirectories parent 0).1
  match grown.write path 0 content 0 with
  | .ok planted => planted
  | .error _ => grown

/-- All files and directories below `home` by path, the latter with a slash at the end, in the order
of their characters. -/
def listing (tree : FileTree) : List String :=
  let shown := tree.nodes.filterMap fun (location, node) =>
    if tree.home.isPrefixOf location && tree.home != location then
      some ("/".intercalate (location.drop tree.home.length) ++
        if node.isDirectory then "/" else "")
    else none
  shown.mergeSort fun a b => decide (a ≤ b)

end FileTree

end EpisodeCut
