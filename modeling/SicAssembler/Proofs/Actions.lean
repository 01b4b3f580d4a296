import SicAssembler.Proofs.Files
import SicAssembler.Session

/-!
What each operation of a session comes to. An action has an outcome and leaves a session behind
(`Session.outcome`, `Session.after`), and for every operation both are given here as functions of
the settings, the table, the layout and the disk that it finds. The log is passed over, for no
operation reads it: sessions are compared by what else they hold (`Session.quiet`).
-/

namespace SicAssembler.Session

variable {α β : Type}

/-! ### Actions -/

@[simp] theorem ok_bind (value : α) (next : α → Except Failure β) :
    (Except.ok value >>= next) = next value := rfl

@[simp] theorem error_bind (failure : Failure) (next : α → Except Failure β) :
    (Except.error failure >>= next) = .error failure := rfl

theorem map_ok (value : α) (change : α → β) :
    (Except.ok value : Except Failure α).map change = .ok (change value) := rfl

def outcome (session : Session) (action : Action α) : Except Failure α :=
  match action session with
  | .ok value _ => .ok value
  | .error failure _ => .error failure

def after (session : Session) (action : Action α) : Session :=
  match action session with
  | .ok _ left => left
  | .error _ left => left

/-- A session that has told nothing yet. -/
def quiet (session : Session) : Session := { session with log := [] }

variable (session : Session)

@[simp] theorem outcome_pure (value : α) : session.outcome (pure value) = .ok value := rfl

@[simp] theorem after_pure (value : α) : session.after (pure value) = session := rfl

theorem outcome_bind (action : Action α) (next : α → Action β) :
    session.outcome (action >>= next) =
      session.outcome action >>= fun value => (session.after action).outcome (next value) := by
  unfold outcome after
  simp only [bind, EStateM.bind]
  cases action session <;> rfl

theorem after_bind (action : Action α) (next : α → Action β) :
    session.after (action >>= next) =
      match session.outcome action with
      | .ok value => (session.after action).after (next value)
      | .error _ => session.after action := by
  unfold outcome after
  simp only [bind, EStateM.bind]
  cases action session <;> rfl

@[simp] theorem outcome_get : session.outcome get = .ok session := rfl

@[simp] theorem after_get : session.after get = session := rfl

@[simp] theorem outcome_modify (change : Session → Session) :
    session.outcome (modify change) = .ok () := rfl

@[simp] theorem outcome_tell (events : List Event) : session.outcome (tell events) = .ok () := rfl

@[simp] theorem after_tell (events : List Event) :
    session.after (tell events) = { session with log := session.log ++ events } := rfl

@[simp] theorem outcome_check (result : Except Failure α) :
    session.outcome (check result) = result := by
  cases result <;> rfl

@[simp] theorem after_check (result : Except Failure α) :
    session.after (check result) = session := by
  cases result <;> rfl

/-! ### Tables -/

theorem quiet_after_loadTable (text : String) :
    (session.after (loadTable text)).quiet =
      { session.quiet with table := OpcodeTable.parse text } := rfl

theorem outcome_loadTableFile (path : RawText) :
    session.outcome (loadTableFile path) =
      (readTableFile session.disk path).map OpcodeTable.parse := by
  unfold loadTableFile
  simp only [outcome_bind, outcome_get, after_get, outcome_check, ok_bind]
  cases readTableFile session.disk path <;> rfl

theorem quiet_after_loadTableFile (path : RawText) :
    (session.after (loadTableFile path)).quiet =
      { session.quiet with
        table := ((readTableFile session.disk path).toOption.map OpcodeTable.parse).getD
          session.table } := by
  unfold loadTableFile
  simp only [after_bind, outcome_get, after_get, outcome_check, after_check]
  cases readTableFile session.disk path <;> rfl

/-! ### The first pass -/

theorem outcome_layOut (file : String) (source : Source) :
    session.outcome (layOut file source) = Layout.ofSource session.table file source := by
  unfold layOut
  simp only [outcome_bind, outcome_get, after_get, outcome_tell, after_tell, outcome_check,
    after_check, ok_bind, outcome_modify, outcome_pure]
  cases Layout.ofSource session.table file source <;> rfl

/-- A first pass that comes to its end replaces the layout; one that fails changes nothing. -/
theorem quiet_after_layOut (file : String) (source : Source) :
    (session.after (layOut file source)).quiet =
      { session.quiet with
        layout := (Layout.ofSource session.table file source).toOption.or session.layout } := by
  unfold layOut
  simp only [after_bind, outcome_get, after_get, outcome_tell, after_tell, outcome_check,
    after_check]
  cases Layout.ofSource session.table file source <;> rfl

theorem quiet_after_layoutReport (file : String) (source : Source) :
    (session.after (layoutReport file source)).quiet =
      (session.after (layOut file source)).quiet := by
  unfold layoutReport
  rw [after_bind]
  cases session.outcome (layOut file source) <;> rfl

/-! ### The kept layout -/

def kept : Except Failure Layout :=
  match session.layout with
  | some layout => .ok layout
  | none => .error (.assembly .layoutMissing)

@[simp] theorem outcome_keptLayout : session.outcome keptLayout = session.kept := by
  unfold keptLayout kept
  rw [outcome_bind, outcome_get, after_get, ok_bind]
  cases session.layout <;> rfl

@[simp] theorem after_keptLayout : session.after keptLayout = session := by
  unfold keptLayout
  simp only [after_bind, outcome_get, after_get]
  cases session.layout <;> rfl

theorem outcome_object :
    session.outcome object = session.kept >>= fun layout => layout.object layout.table := by
  unfold object
  simp only [outcome_bind, outcome_keptLayout, after_keptLayout, outcome_tell, after_tell,
    outcome_check, ok_bind, outcome_pure]
  cases session.kept with
  | error failure => rfl
  | ok layout => cases outcome : layout.object layout.table <;> simp [outcome]

theorem quiet_after_object : (session.after object).quiet = session.quiet := by
  unfold object
  simp only [after_bind, outcome_keptLayout, after_keptLayout, outcome_tell, after_tell,
    outcome_check, after_check]
  cases session.kept with
  | error failure => rfl
  | ok layout => cases outcome : layout.object layout.table <;> simp [outcome, quiet]

theorem outcome_objectReport :
    session.outcome objectReport = session.kept >>= fun layout =>
      layout.objectReport layout.table session.settings.strip := by
  unfold objectReport
  simp only [outcome_bind, outcome_keptLayout, after_keptLayout, outcome_tell, after_tell,
    outcome_get, after_get, outcome_check, ok_bind]

theorem quiet_after_objectReport : (session.after objectReport).quiet = session.quiet := by
  unfold objectReport
  simp only [after_bind, outcome_keptLayout, after_keptLayout, outcome_tell, after_tell,
    outcome_get, after_get, after_check]
  cases session.kept <;> rfl

theorem quiet_after_symbols : (session.after symbols).quiet = session.quiet := by
  unfold symbols
  rw [after_bind, outcome_keptLayout, after_keptLayout]
  cases session.kept <;> rfl

theorem quiet_after_records : (session.after records).quiet = session.quiet := by
  unfold records
  rw [after_bind, outcome_keptLayout, after_keptLayout]
  cases session.kept <;> rfl

/-! ### Both passes -/

theorem kept_after_layOut {file : String} {source : Source} {layout : Layout}
    (laid : Layout.ofSource session.table file source = .ok layout) :
    (session.after (layOut file source)).kept = .ok layout := by
  have left := congrArg Session.layout (session.quiet_after_layOut file source)
  rw [laid] at left
  change (session.after (layOut file source)).layout = some layout at left
  rw [kept, left]

theorem outcome_assemble (file : String) (source : Source) :
    session.outcome (assemble file source) = SicAssembler.assemble session.table file source := by
  unfold assemble SicAssembler.assemble
  rw [outcome_bind, outcome_layOut]
  cases laid : Layout.ofSource session.table file source with
  | error failure => rfl
  | ok layout => rw [ok_bind, ok_bind, outcome_object, kept_after_layOut session laid, ok_bind]

theorem quiet_after_assemble (file : String) (source : Source) :
    (session.after (assemble file source)).quiet = (session.after (layOut file source)).quiet := by
  unfold assemble
  rw [after_bind]
  cases session.outcome (layOut file source) with
  | error failure => rfl
  | ok layout => exact quiet_after_object _

theorem outcome_readProgram (path : RawText) :
    session.outcome (readProgram path) =
      (session.disk.readText path).map fun text => ((Path.normalize path).shown, .text text) := by
  unfold readProgram
  simp only [outcome_bind, outcome_get, after_get, outcome_check, ok_bind]
  cases session.disk.readText path <;> rfl

@[simp] theorem after_readProgram (path : RawText) : session.after (readProgram path) = session := by
  unfold readProgram
  simp only [after_bind, outcome_get, after_get, outcome_check, after_check]
  cases session.disk.readText path <;> rfl

theorem quiet_after_assembleFile (path : RawText) :
    (session.after (assembleFile path)).quiet =
      match session.disk.readText path with
      | .ok text => (session.after (layOut (Path.normalize path).shown (.text text))).quiet
      | .error _ => session.quiet := by
  unfold assembleFile
  rw [after_bind, outcome_readProgram, after_readProgram]
  cases session.disk.readText path with
  | error failure => rfl
  | ok text => exact quiet_after_assemble ..

/-! ### Reports in files -/

/-- A report that goes to a file. Nothing but the disk changes, and nothing at all if the report or
the file cannot be had. -/
structure Writes (action : Action Unit) (path : RawText) (report : Except Failure String) : Prop where
  outcome : session.outcome action = (report >>= session.disk.writeText path).map fun _ => ()
  refused : ∀ failure, session.outcome action = .error failure →
    (session.after action).quiet = session.quiet
  written : session.outcome action = .ok () → ∃ text, report = .ok text ∧
    (session.after action).disk.stored (Path.normalize path) = .ok text.toUTF8 ∧
    (session.after action).quiet = { session.quiet with disk := (session.after action).disk }

theorem writes_of {action : Action Unit} {path : RawText} {report : Except Failure String}
    (outcome : session.outcome action = (report >>= session.disk.writeText path).map fun _ => ())
    (after : (session.after action).quiet =
      { session.quiet with
        disk := (report >>= session.disk.writeText path).toOption.getD session.disk }) :
    session.Writes action path report := by
  have disk : (session.after action).disk =
      (report >>= session.disk.writeText path).toOption.getD session.disk := by
    have same := congrArg Session.disk after
    exact same
  refine ⟨outcome, fun failure refused => ?_, fun succeeded => ?_⟩
  · cases result : report >>= session.disk.writeText path with
    | ok disk =>
      rw [result] at outcome
      cases outcome.symm.trans refused
    | error failure =>
      rw [after, result]
      rfl
  · cases result : report >>= session.disk.writeText path with
    | error failure =>
      rw [result] at outcome
      cases outcome.symm.trans succeeded
    | ok left =>
      obtain ⟨text, reported, written⟩ := bind_ok result
      refine ⟨text, reported, ?_, ?_⟩
      · rw [disk, result]
        exact Disk.stored_writeText written
      · rw [disk, after]

theorem outcome_writeFile (path : RawText) (text : String) :
    session.outcome (writeFile path text) =
      (session.disk.writeText path text).map fun _ => () := by
  unfold writeFile
  simp only [outcome_bind, outcome_get, after_get, outcome_check, ok_bind, outcome_modify]
  cases session.disk.writeText path text <;> rfl

theorem after_writeFile (path : RawText) (text : String) :
    session.after (writeFile path text) =
      { session with
        disk := (session.disk.writeText path text).toOption.getD session.disk } := by
  unfold writeFile
  simp only [after_bind, outcome_get, after_get, outcome_check, after_check]
  cases session.disk.writeText path text <;> rfl

section Found

variable {find : Action α} (unchanged : (session.after find).quiet = session.quiet)
include unchanged

theorem outcome_writeFound (text : α → String) (path : RawText) (events : List Event) :
    session.outcome (do let found ← find; writeFile path (text found); tell events) =
      ((session.outcome find).map text >>= session.disk.writeText path).map fun _ => () := by
  have disk : (session.after find).disk = session.disk := by
    have same := congrArg Session.disk unchanged
    exact same
  rw [outcome_bind]
  cases session.outcome find with
  | error failure => rfl
  | ok found =>
    rw [map_ok, ok_bind, ok_bind, outcome_bind, outcome_writeFile, disk]
    cases session.disk.writeText path (text found) <;> rfl

theorem quiet_after_writeFound (text : α → String) (path : RawText) (events : List Event) :
    (session.after (do let found ← find; writeFile path (text found); tell events)).quiet =
      { session.quiet with
        disk := ((session.outcome find).map text >>= session.disk.writeText path).toOption.getD
          session.disk } := by
  have disk : (session.after find).disk = session.disk := by
    have same := congrArg Session.disk unchanged
    exact same
  rw [after_bind]
  cases session.outcome find with
  | error failure => exact unchanged
  | ok found =>
    dsimp only
    rw [after_bind, outcome_writeFile, after_writeFile, disk, map_ok, ok_bind, ← unchanged]
    cases session.disk.writeText path (text found) <;> rfl

/-- A report that is found without a change of the session, written and told about. -/
theorem writes_found (text : α → String) (path : RawText) (events : List Event) :
    session.Writes (do let found ← find; writeFile path (text found); tell events) path
      ((session.outcome find).map text) :=
  session.writes_of (session.outcome_writeFound unchanged text path events)
    (session.quiet_after_writeFound unchanged text path events)

end Found

theorem outcome_writeListing (path : RawText) :
    session.outcome (writeListing path) =
      (session.kept.map Layout.report >>= session.disk.writeText path).map fun _ => () := by
  rw [← outcome_keptLayout]
  exact session.outcome_writeFound (congrArg quiet session.after_keptLayout) Layout.report path
    [.listingWritten path]

theorem quiet_after_writeListing (path : RawText) :
    (session.after (writeListing path)).quiet =
      { session.quiet with
        disk := (session.kept.map Layout.report >>= session.disk.writeText path).toOption.getD
          session.disk } := by
  rw [← outcome_keptLayout]
  exact session.quiet_after_writeFound (congrArg quiet session.after_keptLayout) Layout.report path
    [.listingWritten path]

theorem writes_writeListing (path : RawText) :
    session.Writes (writeListing path) path (session.kept.map Layout.report) :=
  session.writes_of (session.outcome_writeListing path) (session.quiet_after_writeListing path)

theorem writes_writeObject (path : RawText) :
    session.Writes (writeObject path) path (session.outcome objectReport) := by
  have written := session.writes_found session.quiet_after_objectReport id path
    [.objectWritten path]
  rwa [Except.map_id] at written

end SicAssembler.Session
