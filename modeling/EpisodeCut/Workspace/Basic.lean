import EpisodeCut.Action
import EpisodeCut.Text.Blank
import EpisodeCut.Workspace.FileTree

/-!
# Workspaces

Where a run takes place: the file tree and the external tools. What a tool does when it is started
is a matter of the workspace's script, which answers every invocation with an exit code, some output
and some changes to files. Every invocation is kept (`Workspace.invocations`).
-/

set_option autoImplicit false

namespace EpisodeCut

/-- A tool started with arguments. -/
structure Invocation where
  tool : String
  arguments : List String
  deriving DecidableEq, Repr

/-- A file that a tool writes. -/
structure WrittenFile where
  path : Path
  modified : Nat
  content : List UInt8
  deriving DecidableEq, Repr

/-- What a tool does once it runs. -/
structure Reply where
  exit : UInt8
  stdout : List UInt8
  stderr : String
  writes : List WrittenFile
  removes : List Path
  deriving DecidableEq, Repr

/-- Nothing is done, successfully. -/
def Reply.silent : Reply := ⟨0, [], "", [], []⟩

/-- Whether a tool can be found and started. -/
inductive ToolState where
  | ready
  | missing
  /-- The tool is found, but it cannot be started. -/
  | broken
  deriving DecidableEq, Repr

/-- How tools behave: what the run with a number does, given what is started and the files. -/
abbrev Script := Nat → Invocation → FileTree → Reply

/-- The script that gives the replies of a list in order, and is silent after the last one. -/
def Script.ofList (replies : List Reply) : Script := fun number _ _ =>
  replies.getD number .silent

/-- Files, tools, and what has been started. -/
structure Workspace where
  tree : FileTree
  /-- The time, as far as it is told by the modification of directories. -/
  now : Nat
  /-- The state of each tool; a tool that is not listed is missing. -/
  tools : List (String × ToolState)
  script : Script
  /-- All invocations so far, the first one in front. -/
  invocations : List Invocation
  /-- What has been shown to the user. -/
  console : List UInt8
  /-- What the user has been told on the error channel. -/
  complaints : String

namespace Workspace

/-- The state of a tool. -/
def toolState (workspace : Workspace) (tool : String) : ToolState :=
  (workspace.tools.lookup tool).getD .missing

/-- Whether a tool can be found. -/
def isOnPath (workspace : Workspace) (tool : String) : Bool :=
  workspace.toolState tool != .missing

/-- Set the state of a tool. -/
def setTool (workspace : Workspace) (tool : String) (state : ToolState) : Workspace :=
  { workspace with tools := (tool, state) :: workspace.tools.filter (·.1 != tool) }

/-- Show text to the user. -/
def display (workspace : Workspace) (shown : List UInt8) : Workspace :=
  { workspace with console := workspace.console ++ shown }

/-- Tell the user something on the error channel. -/
def complain (workspace : Workspace) (text : String) : Workspace :=
  { workspace with complaints := workspace.complaints ++ text }

/-- Write a file, if that is possible. -/
def write (workspace : Workspace) (path : Path) (modified : Nat) (content : List UInt8) :
    Workspace :=
  match workspace.tree.write path modified content workspace.now with
  | .ok tree => { workspace with tree := tree }
  | .error _ => workspace

/-- Remove a file, if that is possible. -/
def remove (workspace : Workspace) (path : Path) : Workspace :=
  match workspace.tree.remove path workspace.now with
  | .ok tree => { workspace with tree := tree }
  | .error _ => workspace

/-- Make the changes to files that belong to a reply. -/
def apply (workspace : Workspace) (reply : Reply) : Workspace :=
  let written := reply.writes.foldl (fun workspace file =>
    workspace.write file.path file.modified file.content) workspace
  reply.removes.foldl remove written

/-- The length in bytes of the longest argument. -/
def maxArgumentSize : Nat := 131071

/-- The number of bytes that all arguments together may take. -/
def maxArgumentsSize : Nat := 2097152

/-- The number of bytes that arguments take: each of them its text with an end mark, and a pointer
to it. -/
def argumentsSize (arguments : List String) : Nat :=
  arguments.foldl (fun size argument => size + argument.utf8ByteSize + 9) 0

/-- Why no tool can be started with some arguments. -/
def argumentRefusal? (arguments : List String) : Option OsError :=
  if arguments.any (·.toList.contains '\x00') then some .nulInArgument
  else if arguments.any (maxArgumentSize < ·.utf8ByteSize) ||
      maxArgumentsSize < argumentsSize arguments then
    some .argumentTooLong
  else none

/-- Why a tool that has been found cannot be started with some arguments. -/
def startRefusal? (workspace : Workspace) (tool : String) (arguments : List String) :
    Option OsError :=
  match argumentRefusal? arguments with
  | some cause => some cause
  | none => if workspace.toolState tool = .ready then none else some .notFound

/-- Start a tool that has been found. Time passes while it runs. -/
def start (tool : String) (arguments : List String) (workspace : Workspace) :
    Except OsError Reply × Workspace :=
  match workspace.startRefusal? tool arguments with
  | some cause => (.error cause, workspace)
  | none =>
    let invocation : Invocation := ⟨tool, arguments⟩
    let reply := workspace.script workspace.invocations.length invocation workspace.tree
    let started := { workspace with
      invocations := workspace.invocations ++ [invocation], now := workspace.now + 1 }
    (.ok reply, started.apply reply)

/-- Find a tool. -/
def locate (tool : String) : Action Workspace Unit := do
  let workspace ← get
  if workspace.isOnPath tool then pure ()
  else throw (.tool tool "locate" tool .notOnPath)

/-- Find a tool and run it to its end, for an operation on `subject`. -/
def runTool (tool operation : String) (subject : Path) (arguments : List String) :
    Action Workspace Reply := do
  locate tool
  let workspace ← get
  let (outcome, workspace) := workspace.start tool arguments
  set workspace
  match outcome with
  | .error cause => throw (.tool tool operation subject (.notStarted cause))
  | .ok reply => pure reply

/-- Run a tool that has to succeed, and take its output. -/
def capture (tool operation : String) (subject : Path) (arguments : List String) :
    Action Workspace (List UInt8) := do
  let reply ← runTool tool operation subject arguments
  if reply.exit = 0 then pure reply.stdout
  else
    let stderr := String.ofList (Text.trim reply.stderr.toList)
    throw (.tool tool operation subject (.exited reply.exit.toNat stderr))

/-- Create the directory in which a file is to be written. -/
def makeParent (path : Path) : Action Workspace Unit := do
  match path.parent? with
  | none | some "" => pure ()
  | some parent =>
    let workspace ← get
    let (tree, outcome) := workspace.tree.makeDirectories parent workspace.now
    set { workspace with tree := tree }
    match outcome with
    | .ok () => pure ()
    | .error cause => throw (.uncreatedDirectory parent cause)

end Workspace

end EpisodeCut
