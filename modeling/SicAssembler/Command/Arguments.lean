import SicAssembler.Command.Toolkit
import SicAssembler.Command.Usage
import SicAssembler.Text.Similarity

/-!
Reading a command line. `Arguments.scan` sorts the arguments into settings and operands: switches
stand anywhere before `--`, letters may be grouped, and a value is attached to its switch or comes
next. `Arguments.request` then decides what is asked for, checking paths against the disk. What
cannot be followed is a `Refusal`.
-/

namespace SicAssembler.Command

structure Setting where
  switch : Switch
  value : Option RawText := none
  deriving DecidableEq, Repr

/-- What one argument says: settings, and perhaps a switch whose value is the next argument. -/
inductive Reading where
  | complete (settings : List Setting)
  | awaiting (settings : List Setting) (switch : Switch) (spelling : RawText)
  deriving DecidableEq, Repr

namespace Reading

def after (setting : Setting) : Reading → Reading
  | .complete settings => .complete (setting :: settings)
  | .awaiting settings switch spelling => .awaiting (setting :: settings) switch spelling

/-- A long spelling, with the value after its equals sign. -/
def ofLong (switch : Switch) (spelling : RawText) (value : Option RawText) :
    Except UsageError Reading :=
  match switch.takesValue, value with
  | true, some value => .ok (.complete [⟨switch, some value⟩])
  | true, none => .ok (.awaiting [] switch spelling)
  | false, some _ => .error (.valueRefused spelling)
  | false, none => .ok (.complete [⟨switch, none⟩])

/-- A group of letters. What follows the letter of a switch that takes a value is the value. -/
def ofLetters : RawText → Except UsageError Reading
  | [] => .ok (.complete [])
  | letter :: rest =>
    let spelling := [.char '-', letter]
    match Switch.ofLetter? letter with
    | none => .error (.unknownOption spelling [])
    | some switch =>
      if switch.takesValue then
        if rest.isEmpty then .ok (.awaiting [] switch spelling)
        else .ok (.complete [⟨switch, some rest⟩])
      else (ofLetters rest).map (after ⟨switch, none⟩)

/-- The part of an argument before its first equals sign, and the part after it. -/
def splitValue (argument : RawText) : RawText × Option RawText :=
  let name := argument.takeWhile (· != .char '=')
  match argument.dropWhile (· != .char '=') with
  | [] => (name, none)
  | _ :: value => (name, some value)

/-- An argument that begins with a dash: a long spelling if it is one, else a group of letters
unless it begins with two dashes. -/
def ofArgument (argument : RawText) : Except UsageError Reading :=
  let (name, value) := splitValue argument
  match Switch.ofLong? name with
  | some switch => ofLong switch name value
  | none =>
    match argument with
    | .char '-' :: .char '-' :: _ =>
      .error (.unknownOption name (Text.closeMatches name.legible (Switch.all.map Switch.long)))
    | letters => ofLetters letters.tail

end Reading

structure Arguments where
  settings : List Setting := []
  operands : List RawText := []
  deriving DecidableEq, Repr

namespace Arguments

def withSettings (settings : List Setting) (arguments : Arguments) : Arguments :=
  { arguments with settings := settings ++ arguments.settings }

def withOperand (operand : RawText) (arguments : Arguments) : Arguments :=
  { arguments with operands := operand :: arguments.operands }

/-- Whether an argument is read as switches: it begins with a dash and is more than that. -/
def isSwitch (argument : RawText) : Bool :=
  match argument with
  | .char '-' :: _ :: _ => true
  | _ => false

def scan : List RawText → Except UsageError Arguments
  | [] => .ok {}
  | argument :: rest =>
    if argument == "--" then .ok { operands := rest }
    else if !isSwitch argument then (scan rest).map (withOperand argument)
    else
      match Reading.ofArgument argument with
      | .error error => .error error
      | .ok (.complete settings) => (scan rest).map (withSettings settings)
      | .ok (.awaiting settings switch spelling) =>
        match rest with
        | [] => .error (.valueMissing spelling)
        | value :: rest => (scan rest).map (withSettings (settings ++ [⟨switch, some value⟩]))

def refuse {α : Type} (error : UsageError) : Except Refusal α :=
  .error (.usage error.text)

def has (arguments : Arguments) (switch : Switch) : Bool :=
  arguments.settings.any (·.switch == switch)

/-- The last value given to a switch. -/
def value? (arguments : Arguments) (switch : Switch) : Option RawText :=
  (arguments.settings.reverse.find? (·.switch == switch)).bind Setting.value

/-- The switches given, in the order of their first appearance. -/
def given (arguments : Arguments) : List Switch :=
  (arguments.settings.map Setting.switch).eraseDups

/-- A path that has to be a file, or may also be absent. A file that is there has to be readable, even
one that will be written. A path that no file can have is not looked up. -/
def checkPath (disk : Disk) (parameter : Parameter) (path : RawText) (mustExist : Bool) :
    Except Refusal Unit :=
  if Path.hasNul path then .error (.failure .nulInPath)
  else match disk.find path with
  | .ok (.file _) =>
    if disk.isDenied path then refuse (.pathUnreadable parameter path) else .ok ()
  | .ok .directory => refuse (.pathIsDirectory parameter path)
  | .error _ => if mustExist then refuse (.pathMissing parameter path) else .ok ()

/-- Checks the path given to a switch. Only files that are read have to exist. -/
def checkSwitch (arguments : Arguments) (disk : Disk) (switch : Switch) :
    Except Refusal Unit :=
  match arguments.value? switch with
  | some path => checkPath disk (.value switch) path (switch == .opcodes)
  | none => .ok ()

def input (arguments : Arguments) (disk : Disk) : Except Refusal RawText :=
  match arguments.operands with
  | [] => refuse .inputMissing
  | path :: extra => do
    checkPath disk .input path true
    if extra.isEmpty then return path else refuse (.extraOperands extra)

/-- What the arguments ask for. The first switch that answers by itself comes before all checks;
paths are checked in the order of the switches, the input last. -/
def request (arguments : Arguments) (disk : Disk) : Except Refusal Request :=
  match arguments.given.find? Switch.isAnswer with
  | some .version => .ok (.answer versionText)
  | some _ => .ok (.answer helpText)
  | none => do
    arguments.given.forM (arguments.checkSwitch disk)
    let input ← arguments.input disk
    return .assemble
      { input
        opcodes := arguments.value? .opcodes
        output := arguments.value? .output
        listing := arguments.value? .listing
        layoutOnly := arguments.has .layoutOnly
        strip := arguments.has .strip
        warnings := arguments.has .warnings
        verbose := arguments.has .verbose }

def paths (arguments : Arguments) : List RawText :=
  arguments.operands ++ arguments.settings.filterMap Setting.value

end Arguments

def Request.parse (disk : Disk) (arguments : List RawText) : Except Refusal Request :=
  match Arguments.scan arguments with
  | .error error => Arguments.refuse error
  | .ok arguments => arguments.request disk

end SicAssembler.Command
