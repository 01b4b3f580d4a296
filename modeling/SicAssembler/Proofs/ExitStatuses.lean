import Mathlib.Algebra.Ring.Int.Defs
import SicAssembler.Proofs.CommandRuns

/-!
The exit status of a run. A program that is rejected ends a run as a build error, and so does an
opcode table that cannot be opened; a program that cannot be opened or a report that cannot be written
ends one as wrong use. But there are also files that end a run as an internal error: those that are no
text, those with a numeral of too many digits where a number is read, and, in a verbose run, those
that reserve more bytes than can be written in decimal and those with a name that the standard output
does not take (`run_status`).
-/

namespace SicAssembler

variable {table : OpcodeTable} {file : String} {source : Source}

theorem Layout.length_nonneg {layout : Layout} (laid : ofSource table file source = .ok layout) :
    0 ≤ layout.length := by
  obtain ⟨lines, _, reflects⟩ := reflects_of_ofSource laid
  have base : layout.start.getD 0 = baseAfter lines := by
    rw [reflects.start, baseAfter]
    cases startOf lines <;> rfl
  have further : baseAfter lines ≤ counterAfter table lines := Nat.le_add_right _ _
  rw [length, reflects.counter, base]
  omega

theorem pow_le_natAbs_iff {n : Int} {k : Nat} (nonneg : 0 ≤ n) :
    10 ^ k ≤ n.natAbs ↔ (10 : Int) ^ k ≤ n := by
  lift n to Nat using nonneg
  rw [Int.natAbs_natCast, ← Int.ofNat_le, Int.natCast_pow]
  rfl

namespace Command.Options

variable {toolkit : Toolkit} {options : Options} {disk : Disk} {layout : Layout} {out : RawText}
  {status : ExitStatus}

/-! ### The second pass -/

theorem summaryLine_cases (layout : Layout) :
    (10 ^ Text.maxDigits ≤ layout.length.natAbs ∧
      summaryLine layout = .error (.numeral .tooLarge)) ∨
    (¬10 ^ Text.maxDigits ≤ layout.length.natAbs ∧ ∃ line, summaryLine layout = .ok line) := by
  unfold summaryLine Text.decimal
  rw [Nat.pow_eq]
  by_cases large : 10 ^ Text.maxDigits ≤ layout.length.natAbs
  · rw [if_pos large]
    exact .inl ⟨large, rfl⟩
  · rw [if_neg large]
    exact .inr ⟨large, _, rfl⟩

/-- A verbose run has to tell what cannot be printed: the name of the file with the object program, or
the length of the layout. -/
def Untold (options : Options) (toolkit : Toolkit) (layout : Layout) : Prop :=
  (∃ path ∈ options.output, toolkit.Unprintable (wroteLine path)) ∨
    10 ^ Text.maxDigits ≤ layout.length.natAbs

theorem shownObject_cases (options : Options) (toolkit : Toolkit) (report : String) :
    (options.verbose = true ∧ (∃ path ∈ options.output, toolkit.Unprintable (wroteLine path)) ∧
      ∃ fault, options.shownObject toolkit report = .error (.unprintable fault)) ∨
    (¬(options.verbose = true ∧ ∃ path ∈ options.output, toolkit.Unprintable (wroteLine path)) ∧
      ∃ shown, options.shownObject toolkit report = .ok shown) := by
  unfold shownObject
  cases verbose : options.verbose with
  | false => cases options.output <;> simp
  | true =>
    cases options.output with
    | none => simp
    | some path =>
      rcases toolkit.print_cases (wroteLine path) with unprintable | printed
      · obtain ⟨fault, refused⟩ := unprintable
        exact .inl ⟨rfl, ⟨path, rfl, fault, refused⟩, fault, refused⟩
      · refine .inr ⟨?_, _, printed⟩
        rintro ⟨_, _, ⟨⟩, fault, refused⟩
        cases printed.symm.trans refused

theorem storing_status_iff {report : String} :
    (options.storing toolkit disk layout out report).status = status ↔
      (∃ failure, disk.keep options.output report = .error failure ∧ .ofFailure failure = status) ∨
      ∃ left, disk.keep options.output report = .ok left ∧
        ((options.verbose = true ∧ options.Untold toolkit layout ∧ status = .internalError) ∨
          ¬(options.verbose = true ∧ options.Untold toolkit layout) ∧ status = .success) := by
  unfold storing
  cases kept : disk.keep options.output report with
  | error failure => simp [Ending.status]
  | ok left =>
    rcases shownObject_cases options toolkit report with
      ⟨verbose, unprintable, fault, refused⟩ | ⟨printable, shown, printed⟩
    · have untold : options.Untold toolkit layout := .inl unprintable
      simp [refused, verbose, untold, Ending.status, ExitStatus.ofFailure, eq_comm]
    · unfold concluding
      cases verbose : options.verbose with
      | false => simp [printed, Ending.status, eq_comm]
      | true =>
        rcases summaryLine_cases layout with ⟨large, refused⟩ | ⟨small, line, told⟩
        · have untold : options.Untold toolkit layout := .inr large
          simp [printed, untold, refused, Ending.status, ExitStatus.ofFailure, eq_comm]
        · have told_all : ¬options.Untold toolkit layout := by
            rintro (unprintable | large)
            · exact printable ⟨verbose, unprintable⟩
            · exact small large
          simp [printed, told_all, told, Ending.status, eq_comm]

theorem finishing_status_iff :
    (options.finishing toolkit disk layout out).status = status ↔
      (layout.start = none ∧ status = .buildError) ∨
      (layout.start ≠ none ∧ (∃ record ∈ layout.records,
        record.Overlong layout.table layout.symbols) ∧ status = .internalError) ∨
      ∃ program, layout.object layout.table = .ok program ∧
        (options.storing toolkit disk layout out (program.report options.strip)).status = status := by
  unfold finishing
  rcases layout.object_cases layout.table with
    ⟨unstarted, refused⟩ | ⟨started, overlong, digits, refused⟩ | ⟨started, fitting, program, built⟩
  · rw [refused]
    simp [unstarted, Ending.status, eq_comm]
  · rw [refused]
    simp [started, overlong, Ending.status, ExitStatus.ofFailure, eq_comm]
  · have excluded : ¬∃ record ∈ layout.records, record.Overlong layout.table layout.symbols := by
      rintro ⟨record, member, overlong⟩
      exact fitting record member overlong
    rw [built]
    simp [started, excluded]

/-! ### Both passes -/

theorem ending_status_iff :
    (options.ending toolkit disk).status = status ↔
      (∃ failure, options.layout disk = .error failure ∧ .ofFailure failure = status) ∨
      ∃ layout, options.layout disk = .ok layout ∧
        ((∃ failure, disk.keep options.listing layout.report = .error failure ∧
          .ofFailure failure = status) ∨
        ∃ listed, disk.keep options.listing layout.report = .ok listed ∧
          if options.layoutOnly = true then status = .success
          else (options.finishing toolkit listed layout
            (options.shownLayout toolkit (layout.report ++ "\n"))).status = status) := by
  unfold ending
  cases laid : options.layout disk with
  | error failure => simp [Ending.status]
  | ok layout =>
    cases kept : disk.keep options.listing layout.report with
    | error failure => simp [kept, Ending.status]
    | ok listed =>
      cases only : options.layoutOnly with
      | true => simp [kept, Ending.status, eq_comm]
      | false => simp [kept]

structure Finds (options : Options) (disk : Disk) (table : OpcodeTable) (program : String) :
    Prop where
  chosen : options.Chooses disk table
  source : ∃ stored, disk.loadText options.input = .ok stored ∧ program = Text.unifyNewlines stored

/-- The first pass over what is read gives a layout. -/
def Lays (options : Options) (disk : Disk) (layout : Layout) : Prop :=
  ∃ table program, options.Finds disk table program ∧
    Layout.ofSource table options.file (.text program) = .ok layout

theorem length_nonneg_of_lays (laid : options.Lays disk layout) : 0 ≤ layout.length := by
  obtain ⟨_, _, _, laid⟩ := laid
  exact Layout.length_nonneg laid

/-- A run comes to its second pass, with a layout and a disk on which it has been reported. -/
structure Proceeds (options : Options) (disk : Disk) (layout : Layout) (listed : Disk) : Prop where
  laid : options.Lays disk layout
  kept : disk.keep options.listing layout.report = .ok listed
  both : options.layoutOnly = false

section Accepted

variable (accepted : options.Accepted disk)
include accepted

theorem table_error_iff {failure : Failure} :
    options.table disk = .error failure ↔
      ∃ path ∈ options.opcodes,
        (∃ fault, disk.loadText path = .error (.file fault path) ∧
          failure = .assembly (.unreadableTable (Path.normalize path) fault)) ∨
        ∃ fault, disk.loadText path = .error (.encoding fault) ∧ failure = .encoding fault := by
  unfold Options.table Session.readTableFile Disk.readText
  cases named : options.opcodes with
  | none => simp
  | some path =>
    dsimp only
    rcases Disk.loadText_cases (accepted.opcodes path named) with
      ⟨fault, given, normal⟩ | ⟨fault, given, normal⟩ | ⟨text, given, normal⟩ <;>
      simp [given, normal, Except.map, eq_comm]

theorem layout_error_iff {failure : Failure} :
    options.layout disk = .error failure ↔
      options.table disk = .error failure ∨
      (∃ table, options.Chooses disk table) ∧ disk.readText options.input = .error failure ∨
      ∃ table program, options.Finds disk table program ∧
        Layout.ofSource table options.file (.text program) = .error failure := by
  constructor
  · intro failed
    cases chosen : options.table disk with
    | error reason =>
      rw [Options.layout, chosen, Session.error_bind] at failed
      cases failed
      exact .inl rfl
    | ok table =>
      have chosen := (table_eq_ok_iff accepted).mp chosen
      rw [layout_of_chooses accepted chosen] at failed
      cases source : disk.readText options.input with
      | error reason =>
        rw [source, Session.error_bind] at failed
        cases failed
        exact .inr (.inl ⟨⟨table, chosen⟩, rfl⟩)
      | ok program =>
        rw [source, Session.ok_bind] at failed
        have source := (Disk.readText_ok_iff accepted.input).mp source
        exact .inr (.inr ⟨table, program, ⟨chosen, source⟩, failed⟩)
  · rintro (named | ⟨⟨table, chosen⟩, source⟩ | ⟨table, program, ⟨chosen, source⟩, failed⟩)
    · rw [Options.layout, named, Session.error_bind]
    · rw [layout_of_chooses accepted chosen, source, Session.error_bind]
    · rw [layout_of_chooses accepted chosen, (Disk.readText_ok_iff accepted.input).mpr source,
        Session.ok_bind]
      exact failed

theorem lays_iff : options.Lays disk layout ↔ options.layout disk = .ok layout := by
  constructor
  · rintro ⟨table, program, ⟨chosen, source⟩, laid⟩
    rw [layout_of_chooses accepted chosen, (Disk.readText_ok_iff accepted.input).mpr source,
      Session.ok_bind]
    exact laid
  · intro laid
    obtain ⟨table, chosen, _⟩ := bind_ok laid
    have chosen := (table_eq_ok_iff accepted).mp chosen
    rw [layout_of_chooses accepted chosen] at laid
    obtain ⟨program, source, laid⟩ := bind_ok laid
    exact ⟨table, program, ⟨chosen, (Disk.readText_ok_iff accepted.input).mp source⟩, laid⟩

end Accepted

/-! ### What decides the status -/

/-- What ends a run as an internal error. -/
inductive Overtaxes (options : Options) (toolkit : Toolkit) (disk : Disk) : Prop where
  | table {path : RawText} (named : path ∈ options.opcodes) (undecodable : disk.Undecodable path)
  | source {table : OpcodeTable} (chosen : options.Chooses disk table)
      (undecodable : disk.Undecodable options.input)
  | count {table : OpcodeTable} {program : String} {before after : List SourceLine}
      {line : SourceLine} (finds : options.Finds disk table program)
      (split : (Source.text program).read options.file = .ok (before ++ line :: after))
      (passed : ∀ earlier ∈ before, earlier.Acceptable) (reserves : line.Reserves)
      (decimal : Text.isDecimal line.operand = true)
      (long : Text.maxDigits < line.operand.length)
  | operand {layout : Layout} {listed : Disk} {record : Record}
      (proceeds : options.Proceeds disk layout listed) (started : layout.start ≠ none)
      (member : record ∈ layout.records)
      (overlong : record.Overlong layout.table layout.symbols)
  | name {layout : Layout} {listed left : Disk} {program : ObjectProgram} {path : RawText}
      (verbose : options.verbose = true) (proceeds : options.Proceeds disk layout listed)
      (built : layout.object layout.table = .ok program)
      (stored : listed.keep options.output (program.report options.strip) = .ok left)
      (named : path ∈ options.output) (unprintable : toolkit.Unprintable (wroteLine path))
  | length {layout : Layout} {listed left : Disk} {program : ObjectProgram}
      (verbose : options.verbose = true) (proceeds : options.Proceeds disk layout listed)
      (built : layout.object layout.table = .ok program)
      (stored : listed.keep options.output (program.report options.strip) = .ok left)
      (large : 10 ^ Text.maxDigits ≤ layout.length)

/-- What ends a run as a build error: the program is rejected, or its table cannot be opened. -/
inductive Rejects (options : Options) (disk : Disk) : Prop where
  | table {path : RawText} (named : path ∈ options.opcodes) (unreadable : disk.Unreadable path)
  | line {table : OpcodeTable} {program : String} {error : AssemblyError}
      (finds : options.Finds disk table program)
      (rejected : Layout.ofSource table options.file (.text program) = .error (.assembly error))
  | start {layout : Layout} {listed : Disk} (proceeds : options.Proceeds disk layout listed)
      (unstarted : layout.start = none)

/-- What ends a run as wrong use: the program cannot be opened, or a report cannot be written. -/
inductive Refuses (options : Options) (disk : Disk) : Prop where
  | source {table : OpcodeTable} (chosen : options.Chooses disk table)
      (unreadable : disk.Unreadable options.input)
  | listing {layout : Layout} {fault : FileFault} {path : RawText}
      (laid : options.Lays disk layout)
      (refused : disk.keep options.listing layout.report = .error (.file fault path))
  | output {layout : Layout} {listed : Disk} {program : ObjectProgram} {fault : FileFault}
      {path : RawText} (proceeds : options.Proceeds disk layout listed)
      (built : layout.object layout.table = .ok program)
      (refused : listed.keep options.output (program.report options.strip) =
        .error (.file fault path))

section Status

variable (accepted : options.Accepted disk)
include accepted

theorem status_of_proceeds {listed : Disk} (proceeds : options.Proceeds disk layout listed)
    (finished : (options.finishing toolkit listed layout
      (options.shownLayout toolkit (layout.report ++ "\n"))).status = status) :
    (options.ending toolkit disk).status = status := by
  have laid := (lays_iff accepted).mp proceeds.laid
  refine ending_status_iff.mpr (.inr ⟨layout, laid, .inr ⟨listed, proceeds.kept, ?_⟩⟩)
  rw [if_neg (by simp [proceeds.both])]
  exact finished

theorem status_of_untold {listed left : Disk} {program : ObjectProgram}
    (verbose : options.verbose = true) (proceeds : options.Proceeds disk layout listed)
    (built : layout.object layout.table = .ok program)
    (stored : listed.keep options.output (program.report options.strip) = .ok left)
    (untold : options.Untold toolkit layout) :
    (options.ending toolkit disk).status = .internalError := by
  apply status_of_proceeds accepted proceeds
  refine finishing_status_iff.mpr (.inr (.inr ⟨program, built, ?_⟩))
  exact storing_status_iff.mpr (.inr ⟨left, stored, .inl ⟨verbose, untold, rfl⟩⟩)

theorem internalError_of_overtaxes (overtaxes : options.Overtaxes toolkit disk) :
    (options.ending toolkit disk).status = .internalError := by
  cases overtaxes with
  | table named undecodable =>
    obtain ⟨fault, loaded⟩ := undecodable
    have failed := (table_error_iff accepted).mpr ⟨_, named, .inr ⟨fault, loaded, rfl⟩⟩
    exact ending_status_iff.mpr (.inl ⟨_, (layout_error_iff accepted).mpr (.inl failed), rfl⟩)
  | source chosen undecodable =>
    obtain ⟨fault, loaded⟩ := undecodable
    have failed := (Disk.readText_error_iff accepted.input).mpr (.inr ⟨fault, loaded, rfl⟩)
    have failed := (layout_error_iff accepted).mpr (.inr (.inl ⟨⟨_, chosen⟩, failed⟩))
    exact ending_status_iff.mpr (.inl ⟨_, failed, rfl⟩)
  | @count table program before after line finds split passed reserves decimal long =>
    have counted := SourceLine.count_error_iff.mpr (.inl ⟨decimal, long, rfl⟩)
    have stopped : Layout.ofSource table options.file (.text program) = _ :=
      (Layout.ofSource_error_iff split).mpr ⟨_, _, _, rfl, passed, reserves, counted⟩
    have failed := (layout_error_iff accepted).mpr (.inr (.inr ⟨_, _, finds, stopped⟩))
    exact ending_status_iff.mpr (.inl ⟨_, failed, rfl⟩)
  | operand proceeds started member overlong =>
    apply status_of_proceeds accepted proceeds
    exact finishing_status_iff.mpr (.inr (.inl ⟨started, ⟨_, member, overlong⟩, rfl⟩))
  | name verbose proceeds built stored named unprintable =>
    exact status_of_untold accepted verbose proceeds built stored (.inl ⟨_, named, unprintable⟩)
  | length verbose proceeds built stored large =>
    have nonneg := length_nonneg_of_lays proceeds.laid
    exact status_of_untold accepted verbose proceeds built stored
      (.inr ((pow_le_natAbs_iff nonneg).mpr large))

theorem buildError_of_rejects (rejects : options.Rejects disk) :
    (options.ending toolkit disk).status = .buildError := by
  cases rejects with
  | table named unreadable =>
    obtain ⟨fault, loaded⟩ := unreadable
    have failed := (table_error_iff accepted).mpr ⟨_, named, .inl ⟨fault, loaded, rfl⟩⟩
    exact ending_status_iff.mpr (.inl ⟨_, (layout_error_iff accepted).mpr (.inl failed), rfl⟩)
  | line finds rejected =>
    have failed := (layout_error_iff accepted).mpr (.inr (.inr ⟨_, _, finds, rejected⟩))
    exact ending_status_iff.mpr (.inl ⟨_, failed, rfl⟩)
  | start proceeds unstarted =>
    apply status_of_proceeds accepted proceeds
    exact finishing_status_iff.mpr (.inl ⟨unstarted, rfl⟩)

theorem invalidArguments_of_refuses (refuses : options.Refuses disk) :
    (options.ending toolkit disk).status = .invalidArguments := by
  cases refuses with
  | source chosen unreadable =>
    obtain ⟨fault, loaded⟩ := unreadable
    have failed := (Disk.readText_error_iff accepted.input).mpr (.inl ⟨fault, loaded, rfl⟩)
    have failed := (layout_error_iff accepted).mpr (.inr (.inl ⟨⟨_, chosen⟩, failed⟩))
    exact ending_status_iff.mpr (.inl ⟨_, failed, rfl⟩)
  | listing laid refused =>
    have laid := (lays_iff accepted).mp laid
    exact ending_status_iff.mpr (.inr ⟨_, laid, .inl ⟨_, refused, rfl⟩⟩)
  | output proceeds built refused =>
    apply status_of_proceeds accepted proceeds
    refine finishing_status_iff.mpr (.inr (.inr ⟨_, built, ?_⟩))
    exact storing_status_iff.mpr (.inl ⟨_, refused, rfl⟩)

theorem ending_cases (toolkit : Toolkit) :
    (options.Overtaxes toolkit disk ∧ (options.ending toolkit disk).status = .internalError) ∨
      (options.Rejects disk ∧ (options.ending toolkit disk).status = .buildError) ∨
      (options.Refuses disk ∧ (options.ending toolkit disk).status = .invalidArguments) ∨
      (options.ending toolkit disk).status = .success := by
  suffices options.Overtaxes toolkit disk ∨ options.Rejects disk ∨ options.Refuses disk ∨
      (options.ending toolkit disk).status = .success by
    rcases this with overtaxes | rejects | refuses | success
    · exact .inl ⟨overtaxes, internalError_of_overtaxes accepted overtaxes⟩
    · exact .inr (.inl ⟨rejects, buildError_of_rejects accepted rejects⟩)
    · exact .inr (.inr (.inl ⟨refuses, invalidArguments_of_refuses accepted refuses⟩))
    · exact .inr (.inr (.inr success))
  rcases ending_status_iff.mp rfl with
    ⟨failure, failed, _⟩ | ⟨layout, laid, ⟨failure, refused, _⟩ | ⟨listed, kept, rest⟩⟩
  · rcases (layout_error_iff accepted).mp failed with
      failed | ⟨⟨table, chosen⟩, failed⟩ | ⟨table, program, finds, stopped⟩
    · obtain ⟨path, named, ⟨fault, loaded, _⟩ | ⟨fault, loaded, _⟩⟩ :=
        (table_error_iff accepted).mp failed
      · exact .inr (.inl (.table named ⟨fault, loaded⟩))
      · exact .inl (.table named ⟨fault, loaded⟩)
    · rcases (Disk.readText_error_iff accepted.input).mp failed with
        ⟨fault, loaded, _⟩ | ⟨fault, loaded, _⟩
      · exact .inr (.inr (.inl (.source chosen ⟨fault, loaded⟩)))
      · exact .inl (.source chosen ⟨fault, loaded⟩)
    · have read := Source.read_texts (show (Source.text program).inputs = _ from rfl) options.file
      obtain ⟨before, line, after, split, passed, reserves, counted⟩ :=
        (Layout.ofSource_error_iff read).mp stopped
      rcases SourceLine.count_error_iff.mp counted with ⟨decimal, long, rfl⟩ | ⟨_, rfl⟩
      · exact .inl (.count finds (split ▸ read) passed reserves decimal long)
      · exact .inr (.inl (.line finds stopped))
  · obtain ⟨fault, name, rfl⟩ := Disk.keep_error accepted.listing refused
    exact .inr (.inr (.inl (.listing ((lays_iff accepted).mpr laid) refused)))
  · split at rest
    · exact .inr (.inr (.inr rest))
    · rename_i both
      have proceeds : options.Proceeds disk layout listed :=
        ⟨(lays_iff accepted).mpr laid, kept, by simpa using both⟩
      rcases finishing_status_iff.mp rest with
        ⟨unstarted, _⟩ | ⟨started, ⟨record, member, overlong⟩, _⟩ | ⟨program, built, stored⟩
      · exact .inr (.inl (.start proceeds unstarted))
      · exact .inl (.operand proceeds started member overlong)
      · rcases storing_status_iff.mp stored with
          ⟨failure, refused, _⟩ | ⟨left, stored, ⟨verbose, untold, _⟩ | ⟨_, success⟩⟩
        · obtain ⟨fault, name, rfl⟩ := Disk.keep_error accepted.output refused
          exact .inr (.inr (.inl (.output proceeds built refused)))
        · rcases untold with ⟨path, named, unprintable⟩ | large
          · exact .inl (.name verbose proceeds built stored named unprintable)
          · have nonneg := length_nonneg_of_lays proceeds.laid
            exact .inl (.length verbose proceeds built stored ((pow_le_natAbs_iff nonneg).mp large))
        · exact .inr (.inr (.inr success))

end Status

end Command.Options

namespace Command

/-- Each status but success has its own causes, and a run ends with it if and only if there is one
of them. -/
theorem run_status {toolkit : Toolkit} (lawful : toolkit.Lawful) {disk : Disk}
    {arguments : List RawText} {options : Options}
    (asked : toolkit.parse disk arguments = .ok (.assemble options)) :
    ∃ outcome, run toolkit disk arguments = .ok outcome ∧
      (outcome.status = .internalError ↔ options.Overtaxes toolkit disk) ∧
      (outcome.status = .buildError ↔ options.Rejects disk) ∧
      (outcome.status = .invalidArguments ↔ options.Refuses disk) := by
  have accepted := lawful.accepted asked
  obtain ⟨outcome, ran, status, _, _⟩ := run_eq_ending lawful asked
  refine ⟨outcome, ran, ?_⟩
  rw [status]
  refine ⟨⟨fun ended => ?_, Options.internalError_of_overtaxes accepted⟩,
    ⟨fun ended => ?_, Options.buildError_of_rejects accepted⟩,
    ⟨fun ended => ?_, Options.invalidArguments_of_refuses accepted⟩⟩
  all_goals
    rcases Options.ending_cases accepted toolkit with ⟨_, h⟩ | ⟨_, h⟩ | ⟨_, h⟩ | h
    all_goals first | assumption | cases h.symm.trans ended

def undecodableTable : Disk :=
  (Disk.addFile {} "p.asm" "P START 10".toUTF8).addFile "ops" ⟨#[0xFF]⟩

theorem run_status_of_undecodableTable :
    ∃ outcome, run .piped undecodableTable ["p.asm", "-tops"] = .ok outcome ∧
      outcome.status = .internalError := by
  have asked : Toolkit.piped.parse undecodableTable ["p.asm", "-tops"] =
      .ok (.assemble { input := "p.asm", opcodes := some "ops" }) := by decide +kernel
  obtain ⟨outcome, ran, internal, _⟩ := run_status (Toolkit.lawful_standard {} {}) asked
  have undecodable : undecodableTable.Undecodable "ops" :=
    ⟨⟨0, [0xFF], .badStart⟩, by decide +kernel⟩
  exact ⟨outcome, ran, internal.mpr (.table rfl undecodable)⟩

-- A verbose run ends so too where the output is strict and the name of the file is no text.
example : (run (.standard { strict := true } {}) (nameDisk "P") ["p.asm", "-vo", [.byte 0xFF]]).map
    Outcome.status = .ok .internalError := by
  decide +kernel

def undecodableProgram : Disk := Disk.addFile {} "p.asm" ⟨#[0xFF]⟩

theorem run_ends_internally_of_undecodableProgram :
    ∃ outcome,
      Toolkit.piped.parse undecodableProgram ["p.asm"] = .ok (.assemble { input := "p.asm" }) ∧
      run .piped undecodableProgram ["p.asm"] = .ok outcome ∧ outcome.status = .internalError := by
  obtain ⟨outcome, ran, status⟩ := exists_of_map_ok (x := run .piped undecodableProgram ["p.asm"])
    (f := Outcome.status) (b := .internalError) (by decide +kernel)
  exact ⟨outcome, by decide +kernel, ran, status⟩

end Command

end SicAssembler
