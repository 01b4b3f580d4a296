import SicAssembler.Command.Exit
import SicAssembler.Session

/-!
The command: it lays a program out, reports on the layout, builds the object program and reports on
that, each report going to a file if one is named. `Command.run` is the whole command as a function
of a toolkit, the disk and the arguments; what it prints, the files it leaves and its exit status are
its `Outcome`. A failure before there is anything to do leaves none.
-/

namespace SicAssembler.Command

structure Console where
  session : Session
  out : RawText := []
  err : String := ""

variable (toolkit : Toolkit)

namespace Console

abbrev Action (α : Type) := EStateM Failure Console α

def print (text : RawText) : Action Unit :=
  match toolkit.print text with
  | .ok shown => modify fun console => { console with out := console.out ++ shown }
  | .error failure => throw failure

/-- Prints to the standard error output. -/
def complain (text : String) : Action Unit :=
  modify fun console => { console with err := console.err ++ toolkit.complain text }

/-- The log lines of a session that are shown, and only a verbose one shows any. They are shown as
they are. -/
def shownLog (session : Session) : String :=
  if session.settings.verbose then Text.unlines (session.log.map (Event.line true)) else ""

/-- The console after a session's work: its log is printed and cleared. -/
def settle (console : Console) (session : Session) : Console :=
  { console with
    session := { session with log := [] }
    err := console.err ++ shownLog session }

def perform {α : Type} (action : Session.Action α) : Action α := fun console =>
  match action console.session with
  | .ok value session => .ok value (console.settle session)
  | .error failure session => .error failure (console.settle session)

end Console

open Console

def chooseTable (options : Options) : Action Unit :=
  match options.opcodes with
  | some path => do
    let _ ← perform (Session.loadTableFile (Path.normalize path))
  | none => pure ()

def layOutInput (options : Options) : Action Layout :=
  perform do
    let (file, source) ← Session.readProgram options.input
    Session.layOut file source

def showWarnings (options : Options) (layout : Layout) : Action Unit :=
  if options.warnings && !layout.diagnostics.isEmpty then
    complain toolkit (Diagnostic.report layout.diagnostics ++ "\n")
  else pure ()

def showLayout (options : Options) (layout : Layout) : Action Unit :=
  match options.listing with
  | some path => perform (Session.writeListing (Path.normalize path))
  | none => print toolkit (RawText.ofString (layout.report ++ "\n"))

/-- The line of a verbose run about the file of the object program. -/
def wroteLine (path : RawText) : RawText :=
  "Wrote object program to " ++ Path.normalize path ++ "\n"

def showObject (options : Options) (report : String) : Action Unit :=
  match options.output with
  | some path => do
    perform (Session.writeFile path report)
    if options.verbose then
      print toolkit (wroteLine path)
  | none => print toolkit report

/-- The last line of a verbose run. -/
def summaryLine (layout : Layout) : Except Failure String :=
  match Text.decimal layout.length with
  | .ok length =>
    .ok ("Assembly complete: " ++ toString layout.symbols.size ++ " symbols, " ++ length
      ++ " bytes at " ++ Text.hex 6 (layout.start.getD 0) ++ "\n")
  | .error fault => .error (.numeral fault)

def showSummary (options : Options) (layout : Layout) : Action Unit :=
  if options.verbose then do
    let line ← perform (Session.check (summaryLine layout))
    print toolkit line
  else pure ()

def finish (options : Options) (layout : Layout) : Action ExitStatus := do
  let report ← perform Session.objectReport
  if layout.hasStart then
    showObject toolkit options report
    showSummary toolkit options layout
    return .success
  else
    complain toolkit (report ++ "\n")
    return .buildError

def assemble (options : Options) : Action ExitStatus := do
  chooseTable options
  let layout ← layOutInput options
  showWarnings toolkit options layout
  showLayout toolkit options layout
  if options.layoutOnly then return .success else finish toolkit options layout

structure Outcome where
  status : ExitStatus
  out : RawText := []
  err : String := ""
  disk : Disk

/-- The console at the start: the standard instruction set has been read. -/
def Console.initial (options : Options) (disk : Disk) : Console :=
  let session : Session :=
    { settings := { verbose := options.verbose, strip := options.strip }
      table := OpcodeTable.standard
      disk
      log := OpcodeTable.parseEvents OpcodeTable.standardText }
  Console.settle { session } session

def runAssembly (options : Options) (disk : Disk) : Outcome :=
  match assemble toolkit options (Console.initial options disk) with
  | .ok status console =>
    { status, out := console.out, err := console.err, disk := console.session.disk }
  | .error failure console =>
    let cause := Cause.failure failure
    { status := cause.status
      out := console.out
      err := console.err ++ cause.report toolkit "Assembly" options.verbose
      disk := console.session.disk }

/-- The command: what the arguments ask for, done on a disk. Wrong use is an outcome; a failure
while the arguments are checked is not. -/
def run (disk : Disk) (arguments : List RawText) : Except Failure Outcome :=
  match toolkit.parse disk arguments with
  | .error (.failure reason) => .error reason
  | .error (.usage complaint) =>
    .ok { status := .invalidArguments, err := toolkit.complain complaint, disk }
  | .ok (.answer text) => .ok { status := .success, out := text, disk }
  | .ok (.assemble options) => .ok (runAssembly toolkit options disk)

end SicAssembler.Command
