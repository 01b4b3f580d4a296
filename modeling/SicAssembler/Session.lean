import SicAssembler.Disk
import SicAssembler.ObjectProgram

/-!
Sessions: an assembler with a current opcode table and the layout of the last program whose first
pass came to its end. Loading a table affects later layouts only, a first pass that fails changes
nothing, and the second pass works on the kept layout with the table the layout was made with.

A session's operations are `Session.Action`s: they may fail, and leave a session behind either way.
-/

namespace SicAssembler

structure Settings where
  verbose : Bool := false
  strip : Bool := false
  deriving DecidableEq, Repr

structure Session where
  settings : Settings := {}
  table : OpcodeTable
  layout : Option Layout := none
  disk : Disk := {}
  log : List Event := []

namespace Session

abbrev Action (α : Type) := EStateM Failure Session α

def tell (events : List Event) : Action Unit :=
  modify fun session => { session with log := session.log ++ events }

/-- The outcome of work that needs no session. -/
def check {α : Type} : Except Failure α → Action α
  | .ok value => pure value
  | .error failure => throw failure

/-! ### Opcode tables -/

def useTable (text : String) : Action OpcodeTable := do
  let table := OpcodeTable.parse text
  tell (OpcodeTable.parseEvents text)
  modify fun session => { session with table }
  return table

def loadTable (text : String) : Action OpcodeTable := do
  let table ← useTable text
  tell [.tableLoaded table.size]
  return table

/-- The text of a table's file. A file that cannot be opened is an error of the assembly. -/
def readTableFile (disk : Disk) (path : RawText) : Except Failure String :=
  match disk.readText path with
  | .error (.file fault path) => .error (.assembly (.unreadableTable path fault))
  | outcome => outcome

def loadTableFile (path : RawText) : Action OpcodeTable := do
  let text ← check (readTableFile (← get).disk path)
  let table ← useTable text
  tell [.tableLoadedFrom path table.size]
  return table

/-! ### The two passes -/

/-- Lays a program out and keeps the layout. -/
def layOut (file : String) (source : Source) : Action Layout := do
  let table := (← get).table
  tell (.layoutBegins file :: Layout.events table file source)
  let layout ← check (Layout.ofSource table file source)
  modify fun session => { session with layout := some layout }
  tell (layout.diagnostics.map .warned)
  tell [.layoutDone layout.symbols.size layout.records.length]
  return layout

def keptLayout : Action Layout := do
  match (← get).layout with
  | some layout => return layout
  | none => throw (.assembly .layoutMissing)

def object : Action ObjectProgram := do
  let layout ← keptLayout
  tell (layout.objectEvents layout.table)
  let program ← check (layout.object layout.table)
  tell [.objectDone program.entries.length program.textLength]
  return program

def layoutReport (file : String) (source : Source) : Action String := do
  let layout ← layOut file source
  return layout.report

def objectReport : Action String := do
  let layout ← keptLayout
  tell (layout.reportEvents layout.table)
  check (layout.objectReport layout.table (← get).settings.strip)

def assemble (file : String) (source : Source) : Action ObjectProgram := do
  let _ ← layOut file source
  object

/-- The program of a file, and the name it goes by. -/
def readProgram (path : RawText) : Action (String × Source) := do
  let text ← check ((← get).disk.readText path)
  return ((Path.normalize path).shown, .text text)

def assembleFile (path : RawText) : Action ObjectProgram := do
  let (file, source) ← readProgram path
  assemble file source

/-! ### Results -/

def symbols : Action SymbolTable := do
  return (← keptLayout).symbols

def records : Action (List Record) := do
  return (← keptLayout).records

def writeFile (path : RawText) (text : String) : Action Unit := do
  let disk ← check ((← get).disk.writeText path text)
  modify fun session => { session with disk }

def writeListing (path : RawText) : Action Unit := do
  let layout ← keptLayout
  writeFile path layout.report
  tell [.listingWritten path]

def writeObject (path : RawText) : Action Unit := do
  let report ← objectReport
  writeFile path report
  tell [.objectWritten path]

def diagnostics (session : Session) : List Diagnostic :=
  (session.layout.map Layout.diagnostics).getD []

/-- Whether there is a layout that can have no object program. -/
def hasErrors (session : Session) : Bool :=
  match session.layout with
  | some layout => !layout.hasStart
  | none => false

def diagnosticReport (session : Session) : String :=
  Diagnostic.report session.diagnostics

end Session

end SicAssembler
