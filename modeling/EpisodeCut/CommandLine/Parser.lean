import EpisodeCut.CommandLine.Options

/-!
# Reading the command line

Arguments are read one after another (`Reader.step`). The value of an option may be attached to it
or be the next argument; the value of the last option or the output is only looked at once the next
argument has been recognised, or at the end. After `--` every argument is taken as it is. What is
no text can be part of a value only.
-/

set_option autoImplicit false

namespace EpisodeCut.CommandLine

open Text

/-- An argument whose value has not been looked at yet. -/
inductive Pending where
  /-- An option, without a value as long as the next argument may be it. -/
  | option (option : ValueOption) (value : Option Raw)
  | output (path : Raw)
  deriving DecidableEq, Repr

/-- What the arguments so far have set. -/
structure Reader where
  settings : Settings
  pending : Option Pending
  /-- Whether `--` has been read. -/
  verbatim : Bool
  deriving DecidableEq, Repr

/-- Reasons to stop reading arguments. -/
inductive Stop where
  | help
  | version
  | refused (fault : UsageFault)
  deriving DecidableEq, Repr

namespace Reader

/-- The reader before the first argument. -/
def start : Reader := ⟨.empty, none, false⟩

/-- A change of settings that may be refused. -/
def update (reader : Reader) (settings : Except UsageFault Settings) : Except Stop Reader :=
  match settings with
  | .ok settings => .ok { reader with settings := settings, pending := none }
  | .error fault => .error (.refused fault)

/-- Look at the value that is pending, if there is one. -/
def settle (reader : Reader) : Except Stop Reader :=
  match reader.pending with
  | none => .ok reader
  | some (.option option none) => .error (.refused (.missingValue option))
  | some (.option option (some value)) => reader.update (reader.settings.setValue option value)
  | some (.output path) =>
    if path.isEmpty then .error (.refused .emptyPath)
    else reader.update (.ok { reader.settings with output := some path })

/-- Read an option with its value, if that is attached. -/
def readOption (reader : Reader) (option : ValueOption) (attached : Option Raw) :
    Except Stop Reader := do
  let reader ← reader.settle
  match attached with
  | some value => reader.update (reader.settings.setValue option value)
  | none => .ok { reader with pending := some (.option option none) }

/-- Read a flag. -/
def readFlag (reader : Reader) (flag : Flag) : Except Stop Reader := do
  let reader ← reader.settle
  reader.update (reader.settings.setFlag flag)

/-- Read a request for help or for the version, which ends the reading. -/
def readRequest (reader : Reader) (request : Stop) : Except Stop Reader := do
  let _ ← reader.settle
  .error request

/-- Read a name after two dashes, with a value after an equals sign if there is one. -/
def readLong (reader : Reader) (body : Raw) : Except Stop Reader :=
  let name : Raw := body.takeWhile (· != .char '=')
  let attached : Option Raw := if body.contains (.char '=') then
    some ((body.dropWhile (· != .char '=')).drop 1) else none
  match name.text?.bind (longNames.lookup ·), attached with
  | none, _ => .error (.refused (.unknownOption ("--" ++ name.shown)))
  | some (.value option), attached => reader.readOption option attached
  | some _, some value =>
    .error (.refused (.unexpectedValue ("--" ++ name.shown) value.shown))
  | some (.flag flag), none => reader.readFlag flag
  | some .help, none => reader.readRequest .help
  | some .version, none => reader.readRequest .version

/-- Read letters after one dash. What follows a letter that takes a value is that value. -/
def readShort (reader : Reader) : Raw → Except Stop Reader
  | [] => .ok reader
  | .stray :: rest => .error (.refused (.unknownOption ("-" ++ Raw.shown (.stray :: rest))))
  | .char letter :: rest =>
    match shortNames.lookup letter with
    | none => .error (.refused (.unknownOption (String.ofList ['-', letter])))
    | some (.flag flag) => do
      let reader ← reader.readFlag flag
      reader.readShort rest
    | some (.value option) =>
      reader.readOption option
        (match rest with
          | [] => none
          | .char '=' :: value => some value
          | value => some value)
    | some .help => reader.readRequest .help
    | some .version => reader.readRequest .version

/-- Whether the output has been given. -/
def hasOutput (reader : Reader) : Bool :=
  reader.settings.output.isSome ||
    match reader.pending with
    | some (.output _) => true
    | _ => false

/-- Read an argument that belongs to no option. -/
def readOutput (reader : Reader) (path : Raw) : Except Stop Reader := do
  -- A second output is refused before the value that is pending is looked at.
  if reader.hasOutput then .error (.refused (.extraArgument path.shown))
  else
    let reader ← reader.settle
    .ok { reader with pending := some (.output path) }

/-- Read an argument that is no name. -/
def readPlain (reader : Reader) (argument : Raw) : Except Stop Reader :=
  match reader.pending with
  | some (.option option none) =>
    .ok { reader with pending := some (.option option (some argument)) }
  | _ => reader.readOutput argument

/-- Read one argument. -/
def step (reader : Reader) (argument : Raw) : Except Stop Reader :=
  if reader.verbatim then reader.readOutput argument
  else
    match argument with
    | [.char '-', .char '-'] => .ok { reader with verbatim := true }
    | .char '-' :: .char '-' :: body => reader.readLong body
    | .char '-' :: letter :: rest => reader.readShort (letter :: rest)
    | _ => reader.readPlain argument

end Reader

/-- Read a command line: the settings, and the output, without which there is nothing to do. -/
def parse (arguments : List Raw) : Except Stop (Settings × Raw) := do
  let reader ← arguments.foldlM Reader.step Reader.start
  let reader ← reader.settle
  match reader.settings.output with
  | some output => .ok (reader.settings, output)
  | none => .error (.refused .missingOutput)

end EpisodeCut.CommandLine
