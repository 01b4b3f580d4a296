import SicAssembler.Proofs.Actions
import SicAssembler.Proofs.CommandLine
import SicAssembler.Proofs.Failures

/-!
How a run of the command ends. The command works on a session step by step and may stop at each; all
it does to the disk, the standard output and the exit status comes from a few calls of the two passes
and of the disk, put together in `Options.ending`, and `runAssembly_eq_ending` says that nothing else
has a part in it. What is printed to the standard error output is passed over.
-/

namespace SicAssembler

def ObjectProgram.report (program : ObjectProgram) (strip : Bool) : String :=
  "Object Program:\n" ++ program.text strip

namespace Command

/-! ### Work of the command -/

namespace Console

variable {α β : Type}

/-- Work leads from one session and standard output to others and comes to a result, whatever has
been complained about. -/
def Leads (session : Session) (out : RawText) (action : Action α) (result : Except Failure α)
    (left : Session) (printed : RawText) : Prop :=
  ∀ err, ∃ err', action { session, out, err } =
    match result with
    | .ok value => .ok value { session := left, out := printed, err := err' }
    | .error failure => .error failure { session := left, out := printed, err := err' }

variable {toolkit : Toolkit} {session middle left : Session} {out between printed : RawText}

theorem leads_pure (value : α) : Leads session out (pure value) (.ok value) session out :=
  fun err => ⟨err, rfl⟩

theorem leads_print {text shown : RawText} (taken : toolkit.print text = .ok shown) :
    Leads session out (print toolkit text) (.ok ()) session (out ++ shown) := by
  intro err
  refine ⟨err, ?_⟩
  unfold print
  rw [taken]
  rfl

theorem leads_print_error {text : RawText} {failure : Failure}
    (refused : toolkit.print text = .error failure) :
    Leads session out (print toolkit text) (.error failure) session out := by
  intro err
  refine ⟨err, ?_⟩
  unfold print
  rw [refused]
  rfl

theorem leads_complain (text : String) :
    Leads session out (complain toolkit text) (.ok ()) session out :=
  fun err => ⟨err ++ toolkit.complain text, rfl⟩

theorem leads_perform (action : Session.Action α) :
    Leads session out (perform action) (session.outcome action) (session.after action).quiet
      out := by
  intro err
  refine ⟨err ++ shownLog (session.after action), ?_⟩
  unfold perform Session.outcome Session.after
  dsimp only
  cases action session <;> rfl

theorem leads_perform_of {action : Session.Action α} {result : Except Failure α}
    (outcome : session.outcome action = result) (after : (session.after action).quiet = left) :
    Leads session out (perform action) result left out := by
  rw [← outcome, ← after]
  exact leads_perform action

theorem Leads.bind {action : Action α} {value : α} {next : α → Action β} {result : Except Failure β}
    (first : Leads session out action (.ok value) middle between)
    (second : Leads middle between (next value) result left printed) :
    Leads session out (action >>= next) result left printed := by
  intro err
  obtain ⟨err', done⟩ := first err
  obtain ⟨err'', finished⟩ := second err'
  refine ⟨err'', ?_⟩
  rw [← finished]
  simp only [Bind.bind, EStateM.bind, done]

theorem Leads.stop {action : Action α} {failure : Failure}
    (first : Leads session out action (.error failure) middle between) (next : α → Action β) :
    Leads session out (action >>= next) (.error failure) middle between := by
  intro err
  obtain ⟨err', done⟩ := first err
  refine ⟨err', ?_⟩
  simp only [Bind.bind, EStateM.bind, done]

end Console

/-! ### What the options ask for -/

namespace Options

variable (options : Options)

def table (disk : Disk) : Except Failure OpcodeTable :=
  match options.opcodes with
  | some path => (Session.readTableFile disk path).map OpcodeTable.parse
  | none => .ok OpcodeTable.standard

def session (disk : Disk) (table : OpcodeTable) (layout : Option Layout) : Session :=
  { settings := { verbose := options.verbose, strip := options.strip }
    table, layout, disk }

@[simp] theorem session_disk (disk : Disk) (table : OpcodeTable) (layout : Option Layout) :
    (options.session disk table layout).disk = disk := rfl

@[simp] theorem session_table (disk : Disk) (table : OpcodeTable) (layout : Option Layout) :
    (options.session disk table layout).table = table := rfl

@[simp] theorem session_layout (disk : Disk) (table : OpcodeTable) (layout : Option Layout) :
    (options.session disk table layout).layout = layout := rfl

@[simp] theorem session_kept (disk : Disk) (table : OpcodeTable) (layout : Layout) :
    (options.session disk table (some layout)).kept = .ok layout := rfl

/-- The name that the input goes by in messages. -/
def file : String := (Path.normalize options.input).shown

def layout (disk : Disk) : Except Failure Layout := do
  let table ← options.table disk
  let text ← disk.readText options.input
  Layout.ofSource table options.file (.text text)

/-- What is printed of the report on the layout: all of it, unless it goes to a file. -/
def shownLayout (toolkit : Toolkit) (report : String) : RawText :=
  match options.listing with
  | some _ => []
  | none => toolkit.shown report

def shownObject (toolkit : Toolkit) (report : String) : Except Failure RawText :=
  match options.output with
  | some path => if options.verbose then toolkit.print (wroteLine path) else .ok []
  | none => .ok (toolkit.shown report)

end Options

structure Ending where
  result : Except Failure ExitStatus
  out : RawText
  disk : Disk

def Ending.status (ending : Ending) : ExitStatus :=
  match ending.result with
  | .ok status => status
  | .error failure => .ofFailure failure

namespace Options

variable (options : Options)

/-- How a run ends whose object program has been kept, and told about or printed. -/
def concluding (toolkit : Toolkit) (layout : Layout) (out : RawText) (disk : Disk) : Ending :=
  if options.verbose then
    match summaryLine layout with
    | .error failure => { result := .error failure, out, disk }
    | .ok line => { result := .ok .success, out := out ++ toolkit.shown line, disk }
  else { result := .ok .success, out, disk }

/-- How a run ends whose object program is to be kept. -/
def storing (toolkit : Toolkit) (disk : Disk) (layout : Layout) (out : RawText) (report : String) :
    Ending :=
  match disk.keep options.output report with
  | .error failure => { result := .error failure, out, disk }
  | .ok disk =>
    match options.shownObject toolkit report with
    | .error failure => { result := .error failure, out, disk }
    | .ok shown => options.concluding toolkit layout (out ++ shown) disk

/-- How a run ends whose layout has been reported. -/
def finishing (toolkit : Toolkit) (disk : Disk) (layout : Layout) (out : RawText) : Ending :=
  match layout.object layout.table with
  | .error (.assembly .undefinedStart) => { result := .ok .buildError, out, disk }
  | .error failure => { result := .error failure, out, disk }
  | .ok program => options.storing toolkit disk layout out (program.report options.strip)

def ending (toolkit : Toolkit) (disk : Disk) : Ending :=
  match options.layout disk with
  | .error failure => { result := .error failure, out := [], disk }
  | .ok layout =>
    match disk.keep options.listing layout.report with
    | .error failure => { result := .error failure, out := [], disk }
    | .ok disk =>
      let out := options.shownLayout toolkit (layout.report ++ "\n")
      if options.layoutOnly then { result := .ok .success, out, disk }
      else options.finishing toolkit disk layout out

/-- Asking for warnings has no part in how a run ends. -/
theorem ending_warnings (toolkit : Toolkit) (warnings : Bool) (disk : Disk) :
    ({ options with warnings } : Options).ending toolkit disk = options.ending toolkit disk := by
  simp only [ending, layout, file, table, finishing, storing, concluding, shownLayout, shownObject]

end Options

/-! ### The steps of the command -/

section Steps

open Console

variable {toolkit : Toolkit} {options : Options} {disk : Disk} {table : OpcodeTable}
  {layout : Layout} {out : RawText}

theorem leads_chooseTable {standard : OpcodeTable} (given : OpcodeTable.standard = standard) :
    Leads (options.session disk standard none) out (chooseTable options)
      ((options.table disk).map fun _ => ())
      (options.session disk ((options.table disk).toOption.getD standard) none) out := by
  unfold chooseTable Options.table
  rw [given]
  cases options.opcodes with
  | none => exact leads_pure ()
  | some path =>
    have same : Session.readTableFile disk (Path.normalize path) =
        Session.readTableFile disk path := by
      unfold Session.readTableFile
      rw [Disk.readText_normalize]
    have outcome := (options.session disk standard none).outcome_loadTableFile (Path.normalize path)
    have after :=
      (options.session disk standard none).quiet_after_loadTableFile (Path.normalize path)
    rw [Options.session_disk, same] at outcome after
    dsimp only
    cases read : Session.readTableFile disk path with
    | error failure =>
      rw [read] at outcome after
      exact (leads_perform_of outcome after).stop _
    | ok text =>
      rw [read] at outcome after
      exact (leads_perform_of outcome after).bind (leads_pure ())

theorem leads_layOutInput :
    Leads (options.session disk table none) out (layOutInput options)
      (do let text ← disk.readText options.input
          Layout.ofSource table options.file (.text text))
      (options.session disk table
        (do let text ← disk.readText options.input
            Layout.ofSource table options.file (.text text)).toOption) out := by
  unfold layOutInput
  apply leads_perform_of
  · rw [Session.outcome_bind, Session.outcome_readProgram, Session.after_readProgram,
      Options.session_disk]
    cases disk.readText options.input with
    | error failure => rw [Except.map, Session.error_bind, Session.error_bind]
    | ok text =>
      rw [Session.map_ok, Session.ok_bind, Session.ok_bind]
      exact Session.outcome_layOut _ _ _
  · rw [Session.after_bind, Session.outcome_readProgram, Session.after_readProgram,
      Options.session_disk]
    cases disk.readText options.input with
    | error failure => rfl
    | ok text =>
      have after := (options.session disk table none).quiet_after_layOut options.file (.text text)
      rw [Options.session_table, Options.session_layout, Option.or_none] at after
      exact after

theorem leads_showWarnings (session : Session) :
    Leads session out (showWarnings toolkit options layout) (.ok ()) session out := by
  unfold showWarnings
  split
  · exact leads_complain _
  · exact leads_pure _

theorem leads_writeFile (path : RawText) (report : String) :
    Leads (options.session disk table (some layout)) out (perform (Session.writeFile path report))
      ((disk.writeText path report).map fun _ => ())
      (options.session ((disk.writeText path report).toOption.getD disk) table (some layout))
      out := by
  apply leads_perform_of
  · rw [Session.outcome_writeFile, Options.session_disk]
  · rw [Session.after_writeFile, Options.session_disk]
    rfl

theorem leads_showObject_refused {report : String} {failure : Failure}
    (refused : disk.keep options.output report = .error failure) :
    Leads (options.session disk table (some layout)) out (showObject toolkit options report)
      (.error failure) (options.session disk table (some layout)) out := by
  unfold showObject
  unfold Disk.keep at refused
  cases named : options.output with
  | none =>
    rw [named] at refused
    cases refused
  | some path =>
    rw [named] at refused
    dsimp only at refused ⊢
    have written : Leads (options.session disk table (some layout)) out
        (perform (Session.writeFile path report)) _ _ out := leads_writeFile path report
    rw [refused] at written
    exact written.stop _

section Lawful

variable (lawful : toolkit.Lawful)
include lawful

theorem leads_print_text (session : Session) (text : String) :
    Leads session out (print toolkit text) (.ok ()) session (out ++ toolkit.shown text) :=
  leads_print (lawful.print_text text)

theorem leads_showLayout :
    Leads (options.session disk table (some layout)) out (showLayout toolkit options layout)
      ((disk.keep options.listing layout.report).map fun _ => ())
      (options.session ((disk.keep options.listing layout.report).toOption.getD disk) table
        (some layout))
      (out ++ options.shownLayout toolkit (layout.report ++ "\n")) := by
  unfold showLayout Disk.keep Options.shownLayout
  cases options.listing with
  | none => exact leads_print_text lawful _ _
  | some path =>
    dsimp only
    rw [List.append_nil, ← disk.writeText_normalize]
    have outcome :=
      (options.session disk table (some layout)).outcome_writeListing (Path.normalize path)
    have after :=
      (options.session disk table (some layout)).quiet_after_writeListing (Path.normalize path)
    rw [Options.session_kept, Session.map_ok, Session.ok_bind, Options.session_disk] at outcome after
    exact leads_perform_of outcome after

theorem leads_showObject {report : String} {left : Disk}
    (stored : disk.keep options.output report = .ok left) :
    Leads (options.session disk table (some layout)) out (showObject toolkit options report)
      ((options.shownObject toolkit report).map fun _ => ())
      (options.session left table (some layout))
      (out ++ (options.shownObject toolkit report).toOption.getD []) := by
  unfold showObject Options.shownObject
  unfold Disk.keep at stored
  cases named : options.output with
  | none =>
    rw [named] at stored
    obtain rfl := Except.ok.inj stored
    exact leads_print_text lawful _ _
  | some path =>
    rw [named] at stored
    dsimp only at stored ⊢
    have written : Leads (options.session disk table (some layout)) out
        (perform (Session.writeFile path report)) _ _ out := leads_writeFile path report
    rw [stored] at written
    apply written.bind
    split
    · cases told : toolkit.print (wroteLine path) with
      | ok shown => exact leads_print told
      | error failure =>
        change Leads _ out _ (.error failure) _ (out ++ [])
        rw [List.append_nil]
        exact leads_print_error told
    · change Leads _ out _ (.ok ()) _ (out ++ [])
      rw [List.append_nil]
      exact leads_pure ()

theorem leads_concluding :
    Leads (options.session disk table (some layout)) out
      (do showSummary toolkit options layout; return .success)
      (options.concluding toolkit layout out disk).result
      (options.session (options.concluding toolkit layout out disk).disk table (some layout))
      (options.concluding toolkit layout out disk).out := by
  unfold showSummary Options.concluding
  split
  · have checked : Leads (options.session disk table (some layout)) out
        (perform (Session.check (summaryLine layout))) _ _ _ :=
      leads_perform_of (Session.outcome_check _ _)
        (congrArg Session.quiet (Session.after_check _ (summaryLine layout)))
    cases summary : summaryLine layout with
    | error failure =>
      rw [summary] at checked
      exact (checked.stop _).stop _
    | ok line =>
      rw [summary] at checked
      exact (checked.bind (leads_print_text lawful _ line)).bind (leads_pure _)
  · exact (leads_pure ()).bind (leads_pure _)

theorem leads_storing (report : String) :
    Leads (options.session disk table (some layout)) out
      (do showObject toolkit options report; showSummary toolkit options layout; return .success)
      (options.storing toolkit disk layout out report).result
      (options.session (options.storing toolkit disk layout out report).disk table (some layout))
      (options.storing toolkit disk layout out report).out := by
  unfold Options.storing
  cases kept : disk.keep options.output report with
  | error failure => exact (leads_showObject_refused kept).stop _
  | ok left =>
    have told : Leads (options.session disk table (some layout)) out
        (showObject toolkit options report) _ _ _ := leads_showObject lawful kept
    cases shown : options.shownObject toolkit report with
    | error failure =>
      rw [shown] at told
      change Leads _ out _ (.error failure) _ (out ++ []) at told
      rw [List.append_nil] at told
      exact told.stop _
    | ok text =>
      rw [shown] at told
      exact told.bind (leads_concluding lawful)

theorem leads_finish :
    Leads (options.session disk table (some layout)) out (finish toolkit options layout)
      (options.finishing toolkit disk layout out).result
      (options.session (options.finishing toolkit disk layout out).disk table (some layout))
      (options.finishing toolkit disk layout out).out := by
  have reported : Leads (options.session disk table (some layout)) out
      (perform Session.objectReport) _ _ out :=
    leads_perform_of (Session.outcome_objectReport _) (Session.quiet_after_objectReport _)
  rw [Options.session_kept, Session.ok_bind] at reported
  unfold finish Options.finishing
  unfold Layout.objectReport at reported
  rcases layout.object_cases layout.table with
    ⟨unstarted, refused⟩ | ⟨started, _, digits, refused⟩ | ⟨started, _, program, built⟩
  · rw [refused] at reported ⊢
    apply reported.bind
    rw [Layout.hasStart, unstarted]
    exact (leads_complain _).bind (leads_pure _)
  · rw [refused] at reported ⊢
    exact reported.stop _
  · rw [built] at reported ⊢
    have present : layout.hasStart = true := Option.isSome_iff_ne_none.mpr started
    apply reported.bind
    rw [if_pos present]
    exact leads_storing lawful _

theorem leads_assemble (options : Options) (disk : Disk) :
    ∃ table layout, Leads (options.session disk .standard none) [] (assemble toolkit options)
      (options.ending toolkit disk).result
      (options.session (options.ending toolkit disk).disk table layout)
      (options.ending toolkit disk).out := by
  unfold assemble Options.ending Options.layout
  have chosen : Leads (options.session disk .standard none) [] (chooseTable options) _ _ [] :=
    leads_chooseTable rfl
  cases named : options.table disk with
  | error failure =>
    rw [named] at chosen
    exact ⟨_, _, chosen.stop _⟩
  | ok table =>
    rw [named] at chosen
    have laid : Leads (options.session disk table none) [] (layOutInput options) _ _ [] :=
      leads_layOutInput
    rw [Session.ok_bind]
    cases found : (do
        let text ← disk.readText options.input
        Layout.ofSource table options.file (.text text) : Except Failure Layout) with
    | error failure =>
      rw [found] at laid
      exact ⟨_, _, chosen.bind (laid.stop _)⟩
    | ok layout =>
      rw [found] at laid
      have shown : Leads (options.session disk table (some layout)) []
          (showLayout toolkit options layout) _ _ _ := leads_showLayout lawful
      rw [List.nil_append] at shown
      refine ⟨table, some layout, chosen.bind (laid.bind ((leads_showWarnings _).bind ?_))⟩
      dsimp only
      cases kept : disk.keep options.listing layout.report with
      | error failure =>
        -- Only a report that goes to a file can fail to be kept, and it is not printed.
        have silent : options.shownLayout toolkit (layout.report ++ "\n") = [] := by
          unfold Options.shownLayout
          cases named : options.listing with
          | none =>
            rw [named] at kept
            cases kept
          | some path => rfl
        rw [kept, silent] at shown
        exact shown.stop _
      | ok left =>
        rw [kept] at shown
        apply shown.bind
        split
        · exact leads_pure _
        · exact leads_finish lawful

end Lawful

end Steps

/-- The exit status, the standard output and the disk after a run are those of its ending. -/
theorem runAssembly_eq_ending {toolkit : Toolkit} (lawful : toolkit.Lawful) (options : Options)
    (disk : Disk) :
    (runAssembly toolkit options disk).status = (options.ending toolkit disk).status ∧
      (runAssembly toolkit options disk).out = (options.ending toolkit disk).out ∧
      (runAssembly toolkit options disk).disk = (options.ending toolkit disk).disk := by
  obtain ⟨table, layout, leads⟩ := leads_assemble lawful options disk
  have start : ∃ err, Console.initial options disk =
      { session := options.session disk .standard none, out := [], err } := by
    unfold Console.initial Console.settle Options.session
    generalize OpcodeTable.standard = standard
    exact ⟨_, rfl⟩
  obtain ⟨err, start⟩ := start
  obtain ⟨err', ended⟩ := leads err
  unfold runAssembly Ending.status
  rw [start, ended]
  cases (options.ending toolkit disk).result with
  | ok status => exact ⟨rfl, rfl, rfl⟩
  | error failure => exact ⟨rfl, rfl, rfl⟩

end Command

end SicAssembler
