import SicAssembler.Proofs.Actions
import SicAssembler.Proofs.Positions

/-!
Sessions over time. Steps follow one another, any of them may fail, and the files may be changed by
others in between. Whatever they are, a session holds the last table that was loaded and the last
layout that was completed (`Session.run_eq_last`), and what it makes of that layout is what
the two passes make of that program and that table from the beginning (`Work.bind_kept`).
-/

namespace SicAssembler

/-! ### Steps -/

/-- What a session may be asked for, and a change of the files by others. The table, the layout and
the diagnostics are read off a session without a step. -/
inductive Step where
  | loadTable (text : String)
  | loadTableFile (path : RawText)
  | layOut (file : String) (source : Source)
  | layoutReport (file : String) (source : Source)
  | object
  | objectReport
  | assemble (file : String) (source : Source)
  | assembleFile (path : RawText)
  | symbols
  | records
  | writeListing (path : RawText)
  | writeObject (path : RawText)
  | files (disk : Disk)

namespace Step

/-- The session after a step, whether it succeeded or not. -/
def perform (session : Session) : Step → Session
  | .loadTable text => session.after (Session.loadTable text)
  | .loadTableFile path => session.after (Session.loadTableFile path)
  | .layOut file source => session.after (Session.layOut file source)
  | .layoutReport file source => session.after (Session.layoutReport file source)
  | .object => session.after Session.object
  | .objectReport => session.after Session.objectReport
  | .assemble file source => session.after (Session.assemble file source)
  | .assembleFile path => session.after (Session.assembleFile path)
  | .symbols => session.after Session.symbols
  | .records => session.after Session.records
  | .writeListing path => session.after (Session.writeListing path)
  | .writeObject path => session.after (Session.writeObject path)
  | .files disk => { session with disk }

def table? (disk : Disk) : Step → Option OpcodeTable
  | .loadTable text => some (OpcodeTable.parse text)
  | .loadTableFile path => (Session.readTableFile disk path).toOption.map OpcodeTable.parse
  | _ => none

def program? (disk : Disk) : Step → Option (String × Source)
  | .layOut file source => some (file, source)
  | .layoutReport file source => some (file, source)
  | .assemble file source => some (file, source)
  | .assembleFile path =>
    (disk.readText path).toOption.map fun text => ((Path.normalize path).shown, .text text)
  | _ => none

end Step

structure Work where
  table : OpcodeTable
  file : String
  source : Source
  layout : Layout
  laid : Layout.ofSource table file source = .ok layout

def Work.of? (table : OpcodeTable) (file : String) (source : Source) : Option Work :=
  match laid : Layout.ofSource table file source with
  | .ok layout => some { table, file, source, layout, laid }
  | .error _ => none

theorem Work.map_layout_of? (table : OpcodeTable) (file : String) (source : Source) :
    (of? table file source).map layout = (Layout.ofSource table file source).toOption := by
  unfold of?
  split
  · rename_i layout laid
    exact (congrArg Except.toOption laid).symm
  · rename_i failure refused
    exact (congrArg Except.toOption refused).symm

/-- The first pass that a step brings to its end, under the table that the session has then. -/
def Step.work? (session : Session) (step : Step) : Option Work :=
  (step.program? session.disk).bind fun program =>
    Work.of? session.table program.1 program.2

/-! ### One step -/

namespace Step

variable {session left : Session} {table : OpcodeTable} {layout : Option Layout} {disk : Disk}

theorem fields_of_quiet
    (same : left.quiet = { session.quiet with table, layout, disk }) :
    left.settings = session.settings ∧ left.table = table ∧ left.layout = layout := by
  obtain ⟨settings, table, layout, _⟩ := Session.mk.inj same
  exact ⟨settings, table, layout⟩

theorem fields_of_layOut {file : String} {source : Source}
    (same : left.quiet = (session.after (Session.layOut file source)).quiet) :
    left.settings = session.settings ∧ left.table = session.table ∧
      left.layout = ((Work.of? session.table file source).map Work.layout).or session.layout := by
  rw [Session.quiet_after_layOut, ← Work.map_layout_of?] at same
  exact fields_of_quiet same

theorem fields_of_writes {action : Session.Action Unit} {path : RawText}
    {report : Except Failure String} (writes : session.Writes action path report) :
    (session.after action).settings = session.settings ∧
      (session.after action).table = session.table ∧
      (session.after action).layout = session.layout := by
  cases ended : session.outcome action with
  | error failure => exact fields_of_quiet (writes.refused failure ended)
  | ok =>
    obtain ⟨_, _, _, same⟩ := writes.written ended
    exact fields_of_quiet same

/-- All that a step does to a session, its files and its log apart. -/
theorem fields_perform (session : Session) (step : Step) :
    (step.perform session).settings = session.settings ∧
      (step.perform session).table = (step.table? session.disk).getD session.table ∧
      (step.perform session).layout =
        ((step.work? session).map Work.layout).or session.layout := by
  cases step with
  | loadTable text => exact fields_of_quiet (session.quiet_after_loadTable text)
  | loadTableFile path => exact fields_of_quiet (session.quiet_after_loadTableFile path)
  | layOut file source => exact fields_of_layOut rfl
  | layoutReport file source => exact fields_of_layOut (session.quiet_after_layoutReport file source)
  | object => exact fields_of_quiet session.quiet_after_object
  | objectReport => exact fields_of_quiet session.quiet_after_objectReport
  | assemble file source => exact fields_of_layOut (session.quiet_after_assemble file source)
  | assembleFile path =>
    have same := session.quiet_after_assembleFile path
    cases read : session.disk.readText path with
    | error failure =>
      have none : (assembleFile path).work? session = none := by
        rw [work?, program?, read]
        rfl
      rw [read] at same
      rw [none]
      exact fields_of_quiet same
    | ok text =>
      have found : (assembleFile path).work? session =
          Work.of? session.table (Path.normalize path).shown (.text text) := by
        rw [work?, program?, read]
        rfl
      rw [read] at same
      rw [found]
      exact fields_of_layOut same
  | symbols => exact fields_of_quiet session.quiet_after_symbols
  | records => exact fields_of_quiet session.quiet_after_records
  | writeListing path => exact fields_of_writes (session.writes_writeListing path)
  | writeObject path => exact fields_of_writes (session.writes_writeObject path)
  | files disk => exact ⟨rfl, rfl, rfl⟩

end Step

/-! ### Any number of steps -/

namespace Session

def run (session : Session) (steps : List Step) : Session :=
  steps.foldl Step.perform session

def moments (session : Session) (steps : List Step) : List (Session × Step) :=
  steps.mapIdx fun i step => (session.run (steps.take i), step)

def lastWork (session : Session) (steps : List Step) : Option Work :=
  ((session.moments steps).filterMap fun moment => moment.2.work? moment.1).getLast?

def lastTable (session : Session) (steps : List Step) : Option OpcodeTable :=
  ((session.moments steps).filterMap fun moment => moment.2.table? moment.1.disk).getLast?

variable (session : Session)

theorem run_concat (steps : List Step) (step : Step) :
    session.run (steps ++ [step]) = step.perform (session.run steps) :=
  List.foldl_concat ..

theorem moments_concat (steps : List Step) (step : Step) :
    session.moments (steps ++ [step]) =
      session.moments steps ++ [(session.run steps, step)] := by
  have earlier : steps.mapIdx
      (fun i made => (session.run ((steps ++ [step]).take i), made)) =
      steps.mapIdx fun i made => (session.run (steps.take i), made) := by
    rw [List.mapIdx_eq_mapIdx_iff]
    intro i bound
    rw [List.take_append_of_le_length bound.le]
  rw [moments, List.mapIdx_concat, earlier, List.take_left, ← moments]

/-- What each step may replace and else leaves as it is, is what the last one put there. -/
theorem run_eq_last {β : Type} (held : Session → β) (put? : Session → Step → Option β)
    (replaces : ∀ session step,
      held (step.perform session) = (put? session step).getD (held session))
    (steps : List Step) :
    held (session.run steps) =
      ((session.moments steps).filterMap fun moment => put? moment.1 moment.2).getLast?.getD
        (held session) := by
  induction steps using List.reverseRecOn with
  | nil => rfl
  | append_singleton steps step ih =>
    rw [run_concat, replaces, ih, moments_concat, List.filterMap_append]
    cases put : put? (session.run steps) step <;> simp [put]

theorem settings_run (steps : List Step) :
    (session.run steps).settings = session.settings := by
  have last := session.run_eq_last Session.settings (fun _ _ => none)
    (fun session step => (step.fields_perform session).1) steps
  rw [last, List.filterMap_none]
  rfl

theorem table_run (steps : List Step) :
    (session.run steps).table = (session.lastTable steps).getD session.table :=
  session.run_eq_last Session.table (fun session step => step.table? session.disk)
    (fun session step => (step.fields_perform session).2.1) steps

theorem layout_run (steps : List Step) :
    (session.run steps).layout =
      ((session.lastWork steps).map Work.layout).or session.layout := by
  have replaces : ∀ (session : Session) (step : Step), (step.perform session).layout =
      ((step.work? session).map fun work => some work.layout).getD session.layout := by
    intro session step
    rw [(step.fields_perform session).2.2]
    cases step.work? session <;> rfl
  have last := session.run_eq_last Session.layout
    (fun session step => (step.work? session).map fun work => some work.layout) replaces steps
  rw [last, ← List.map_filterMap, List.getLast?_map, ← lastWork]
  cases session.lastWork steps <;> rfl

end Session

/-! ### What is made of the last program -/

namespace Work

/-- What is made of the program and the table of a first pass, if there was one. -/
def make {α : Type} (made : OpcodeTable → Source → Except Failure α) :
    Option Work → Except Failure α
  | none => .error (.assembly .layoutMissing)
  | some work => made work.table work.source

/-- The report on a program's layout, from the beginning. -/
def freshListing (table : OpcodeTable) (source : Source) : Except Failure String := do
  let layout ← Layout.ofSource table unnamedSource source
  return layout.report

def freshObjectReport (strip : Bool) (table : OpcodeTable) (source : Source) :
    Except Failure String := do
  let layout ← Layout.ofSource table unnamedSource source
  layout.objectReport layout.table strip

/-- What depends on a layout but not on its diagnostics may as well be made from the beginning, and
under any name. -/
theorem bind_kept {α : Type} {session : Session} {work : Option Work}
    (held : session.layout = work.map layout) (use : Layout → Except Failure α)
    (unaware : ∀ layout diagnostics, use { layout with diagnostics } = use layout) :
    session.kept >>= use = make (fun table source =>
      Layout.ofSource table unnamedSource source >>= use) work := by
  cases work with
  | none =>
    rw [Session.kept, held]
    rfl
  | some work =>
    obtain ⟨renamed, again, same⟩ := Layout.ofSource_renamed work.laid unnamedSource
    rw [Session.kept, held, make, again]
    change use work.layout = use renamed
    rw [same, unaware]

end Work

namespace Session

/-- After any steps a session holds the last table that was loaded and the layout of the last
program that was laid out. It makes of that layout what is made of that program and its table from
the beginning, and assembles any other program as its table alone would have it. -/
theorem works_on_last_program (settings : Settings) (table : OpcodeTable) (disk : Disk)
    (steps : List Step) :
    let first : Session := { settings, table, disk }
    let session := first.run steps
    let work := first.lastWork steps
    session.settings = settings ∧
      session.table = (first.lastTable steps).getD table ∧
      session.layout = work.map Work.layout ∧
      session.outcome object = Work.make (fun table source =>
        SicAssembler.assemble table unnamedSource source) work ∧
      session.outcome objectReport = Work.make (Work.freshObjectReport settings.strip) work ∧
      (∀ path, session.Writes (writeListing path) path (Work.make Work.freshListing work)) ∧
      (∀ path, session.Writes (writeObject path) path
        (Work.make (Work.freshObjectReport settings.strip) work)) ∧
      ∀ file source,
        session.outcome (assemble file source) = SicAssembler.assemble session.table file source := by
  intro first session work
  have same : session.settings = settings := first.settings_run steps
  have held : session.layout = work.map Work.layout :=
    (first.layout_run steps).trans Option.or_none
  have listing : session.kept.map Layout.report = Work.make Work.freshListing work := by
    have mapped : session.kept.map Layout.report =
        session.kept >>= fun layout => .ok layout.report := by
      cases session.kept <;> rfl
    rw [mapped]
    exact Work.bind_kept held (fun layout => .ok layout.report) fun _ _ => rfl
  have report : session.outcome objectReport =
      Work.make (Work.freshObjectReport settings.strip) work := by
    rw [outcome_objectReport, same]
    exact Work.bind_kept held
      (fun layout => layout.objectReport layout.table settings.strip) fun _ _ => rfl
  refine ⟨same, first.table_run steps, held, ?_, report, fun path => ?_, fun path => ?_,
    session.outcome_assemble⟩
  · rw [outcome_object]
    exact Work.bind_kept held (fun layout => layout.object layout.table) fun _ _ => rfl
  · rw [← listing]
    exact session.writes_writeListing path
  · rw [← report]
    exact session.writes_writeObject path

/-- A program that is laid out, and then a new table, a first pass that fails and a table that is
not there. -/
def failingSteps : List Step :=
  [.layOut unnamedSource (.text "P START 10\nA ADD A"), .loadTable "ADD 1C",
    .layOut unnamedSource (.text "B RESW"), .loadTableFile "absent"]

theorem works_on_last_program_after_failures :
    let session := ({ table := Layout.oneInstruction } : Session).run failingSteps
    session.table.get? "ADD" = some "1C" ∧
      (session.outcome object).map ObjectProgram.entries = .ok ["180010"] := by
  obtain ⟨_, table, _, object, _⟩ :=
    works_on_last_program {} Layout.oneInstruction {} failingSteps
  constructor
  · rw [table]
    decide +kernel
  · rw [object]
    decide +kernel

end Session

end SicAssembler
