import SicAssembler.Proofs.Endings
import SicAssembler.Proofs.StandardToolkit

/-!
The command and the two passes. A run that may write its reports ends as the passes over the read
program end, and its reports are theirs (`run_agrees`): those that go to files are found there to the
letter, and those that are printed are shown as the toolkit shows them, which may cost them their
control sequences. Warnings have no part in how a run ends.
-/

namespace SicAssembler

namespace Command

/-! ### What is read -/

namespace Options

variable {options : Options} {disk : Disk} {table : OpcodeTable} {stored : String}

/-- The opcode table is the one that the file of the options defines, or the standard one. -/
def Chooses (options : Options) (disk : Disk) (table : OpcodeTable) : Prop :=
  match options.opcodes with
  | some path =>
    ∃ stored, disk.loadText path = .ok stored ∧ table = .parse (Text.unifyNewlines stored)
  | none => table = .standard

structure Storable (options : Options) (disk : Disk) : Prop where
  listing : ∀ path ∈ options.listing, ∃ place, disk.target (Path.normalize path) = .ok place
  output : ∀ path ∈ options.output, ∃ place, disk.target (Path.normalize path) = .ok place
  distinct : ∀ path ∈ options.listing, ∀ other ∈ options.output,
    disk.target (Path.normalize path) ≠ disk.target (Path.normalize other)

theorem readTableFile_ok_iff {path : RawText} {text : String} :
    Session.readTableFile disk path = .ok text ↔ disk.readText path = .ok text := by
  unfold Session.readTableFile
  split
  · simp [*]
  · rfl

theorem table_eq_ok_iff (accepted : options.Accepted disk) :
    options.table disk = .ok table ↔ options.Chooses disk table := by
  unfold Options.table Chooses
  cases named : options.opcodes with
  | none => simp [eq_comm]
  | some path =>
    have there := accepted.opcodes path named
    dsimp only
    constructor
    · intro parsed
      obtain ⟨text, read, rfl⟩ := exists_of_map_ok parsed
      obtain ⟨stored, loaded, rfl⟩ := (Disk.readText_ok_iff there).mp (readTableFile_ok_iff.mp read)
      exact ⟨stored, loaded, rfl⟩
    · rintro ⟨stored, loaded, defined⟩
      rw [readTableFile_ok_iff.mpr ((Disk.readText_ok_iff there).mpr ⟨stored, loaded, rfl⟩), defined]
      rfl

theorem layout_of_chooses (accepted : options.Accepted disk) (chosen : options.Chooses disk table) :
    options.layout disk = (disk.readText options.input >>= fun program =>
      Layout.ofSource table options.file (.text program)) := by
  rw [Options.layout, (table_eq_ok_iff accepted).mpr chosen, Session.ok_bind]

/-! ### What is reported -/

/-- The report on the layout is in the file that is named for it, or printed first. -/
def Lists (options : Options) (toolkit : Toolkit) (report : String) (out : RawText) (left : Disk) :
    Prop :=
  match options.listing with
  | some path => left.stored (Path.normalize path) = .ok report.toUTF8
  | none => ∃ rest, out = toolkit.shown (RawText.ofString (report ++ "\n")) ++ rest

/-- The report on the object program is in the file that is named for it, or printed last. -/
def Delivers (options : Options) (toolkit : Toolkit) (report : String) (out : RawText)
    (left : Disk) : Prop :=
  match options.output with
  | some path => left.stored (Path.normalize path) = .ok report.toUTF8
  | none => ∃ front, out = front ++ toolkit.shown report

variable {toolkit : Toolkit} {report : String} {out : RawText} {left : Disk}

theorem lists_of_keep (kept : disk.keep options.listing report = .ok left) :
    options.Lists toolkit report (options.shownLayout toolkit (report ++ "\n")) left := by
  unfold Lists shownLayout
  cases named : options.listing with
  | none => exact ⟨[], (List.append_nil _).symm⟩
  | some path =>
    rw [named] at kept
    exact Disk.stored_writeText kept

theorem Lists.of_same (lists : options.Lists toolkit report out left) {after : Disk}
    (same : ∀ path ∈ options.listing,
      after.stored (Path.normalize path) = left.stored (Path.normalize path)) (more : RawText) :
    options.Lists toolkit report (out ++ more) after := by
  unfold Lists at lists ⊢
  cases named : options.listing with
  | none =>
    rw [named] at lists
    obtain ⟨rest, rfl⟩ := lists
    exact ⟨rest ++ more, List.append_assoc ..⟩
  | some path =>
    rw [named] at lists
    exact (same path named).trans lists

theorem delivers_of_keep {shown : RawText} (kept : disk.keep options.output report = .ok left)
    (told : options.shownObject toolkit report = .ok shown) :
    options.Delivers toolkit report (out ++ shown) left := by
  unfold shownObject at told
  unfold Delivers
  cases named : options.output with
  | none =>
    rw [named] at told
    exact ⟨out, by rw [Except.ok.inj told]⟩
  | some path =>
    rw [named] at kept
    exact Disk.stored_writeText kept

theorem exists_shownObject (silent : options.verbose = false) (toolkit : Toolkit) (report : String) :
    ∃ shown, options.shownObject toolkit report = .ok shown := by
  unfold shownObject
  split
  · simp [silent]
  · exact ⟨_, rfl⟩

/-! ### How a run ends -/

/-- The exit status, the standard output and the disk that a run leaves agree with what the two
passes come to. -/
structure Matches (options : Options) (toolkit : Toolkit) (disk : Disk)
    (layout : Except Failure Layout) (program : Except Failure ObjectProgram) (status : ExitStatus)
    (out : RawText) (left : Disk) : Prop where
  success : options.layoutOnly = false →
    (status = .success ↔ ∃ built, program = .ok built)
  buildError : options.layoutOnly = false →
    (status = .buildError ↔ ∃ error, program = .error (.assembly error))
  cause : ∀ error, program = .error (.assembly error) →
    (∃ name operand location line, error = .malformedCount name operand location line) ∨
      error = .undefinedStart
  layoutOnly : options.layoutOnly = true → (status = .success ↔ ∃ laid, layout = .ok laid)
  output : options.layoutOnly = false → ∀ built, program = .ok built →
    options.Delivers toolkit (built.report options.strip) out left
  listing : ∀ laid, layout = .ok laid → options.Lists toolkit laid.report out left
  untouched : status ≠ .success ∨ options.layoutOnly = true → ∀ path ∈ options.output,
    left.stored (Path.normalize path) = disk.stored (Path.normalize path)

theorem matches_of_error {layout : Except Failure Layout} {failure : Failure}
    (cause : failure.OfText) (unlaid : options.layoutOnly = true → ∀ laid, layout ≠ .ok laid)
    (lists : ∀ laid, layout = .ok laid → options.Lists toolkit laid.report out left)
    (same : ∀ path ∈ options.output,
      left.stored (Path.normalize path) = disk.stored (Path.normalize path)) :
    options.Matches toolkit disk layout (.error failure) (.ofFailure failure) out left where
  success _ := by cases cause <;> simp [ExitStatus.ofFailure]
  buildError _ := by cases cause <;> simp [ExitStatus.ofFailure]
  cause error failed := by
    cases failed
    exact cause.cases_assembly
  layoutOnly only := by
    constructor
    · intro succeeded
      cases cause <;> cases succeeded
    · rintro ⟨laid, done⟩
      exact (unlaid only laid done).elim
  output _ built failed := by cases failed
  listing := lists
  untouched _ := same

section Agreement

variable (accepted : options.Accepted disk) (storable : options.Storable disk)
include accepted storable

theorem finishing_matches {layout : Layout} {listed : Disk} (silent : options.verbose = false)
    (both : options.layoutOnly = false) (kept : disk.keep options.listing layout.report = .ok listed)
    (same : ∀ path ∈ options.output,
      listed.stored (Path.normalize path) = disk.stored (Path.normalize path)) :
    let ending :=
      options.finishing toolkit listed layout (options.shownLayout toolkit (layout.report ++ "\n"))
    options.Matches toolkit disk (.ok layout) (layout.object layout.table) ending.status ending.out
      ending.disk := by
  have lists : ∀ laid, Except.ok layout = (.ok laid : Except Failure Layout) →
      options.Lists toolkit laid.report (options.shownLayout toolkit (layout.report ++ "\n"))
        listed := by
    rintro _ ⟨⟩
    exact lists_of_keep kept
  unfold finishing
  rcases layout.object_cases layout.table with
    ⟨_, refused⟩ | ⟨_, _, digits, refused⟩ | ⟨_, _, program, built⟩
  · rw [refused]
    exact matches_of_error .undefinedStart (by simp [both]) lists same
  · rw [refused]
    exact matches_of_error (.tooLong digits) (by simp [both]) lists same
  · have room : ∀ path ∈ options.output,
        ∃ place, listed.target (Path.normalize path) = .ok place := by
      intro path named
      obtain ⟨place, led⟩ := storable.output path named
      exact ⟨place, Disk.target_of_keep kept led⟩
    obtain ⟨left, stored⟩ := Disk.exists_keep accepted.output room (program.report options.strip)
    obtain ⟨shown, told⟩ := exists_shownObject silent toolkit (program.report options.strip)
    have ends : options.storing toolkit listed layout
        (options.shownLayout toolkit (layout.report ++ "\n")) (program.report options.strip) =
          { result := .ok .success
            out := options.shownLayout toolkit (layout.report ++ "\n") ++ shown
            disk := left } := by
      simp only [storing, stored, told, concluding, silent, Bool.false_eq_true, if_false]
    have undisturbed : ∀ path ∈ options.listing,
        left.stored (Path.normalize path) = listed.stored (Path.normalize path) := by
      intro path named
      obtain ⟨place, led⟩ := storable.listing path named
      apply Disk.stored_of_keep stored (Disk.target_of_keep kept led)
      intro other output
      obtain ⟨other_place, other_led⟩ := storable.output other output
      rw [Disk.target_of_keep kept led, Disk.target_of_keep kept other_led, ← led, ← other_led]
      exact (storable.distinct path named other output).symm
    rw [built]
    dsimp only
    rw [ends]
    exact
      { success := fun _ => ⟨fun _ => ⟨program, rfl⟩, fun _ => rfl⟩
        buildError := by simp [Ending.status]
        cause := by simp
        layoutOnly := by simp [both]
        output := by
          rintro _ _ ⟨⟩
          exact delivers_of_keep stored told
        listing := by
          rintro laid ⟨⟩
          exact (lists_of_keep kept).of_same undisturbed _
        untouched := by simp [Ending.status, both] }

theorem ending_matches (silent : options.verbose = false)
    (chosen : options.Chooses disk table) (source : disk.loadText options.input = .ok stored) :
    options.Matches toolkit disk
      (Layout.ofSource table options.file (.text (Text.unifyNewlines stored)))
      (SicAssembler.assemble table options.file (.text (Text.unifyNewlines stored)))
      (options.ending toolkit disk).status (options.ending toolkit disk).out
      (options.ending toolkit disk).disk := by
  have read := (Disk.readText_ok_iff accepted.input).mpr ⟨stored, source, rfl⟩
  have layout := layout_of_chooses accepted chosen
  rw [read, Session.ok_bind] at layout
  unfold SicAssembler.assemble ending
  rw [layout]
  cases laid : Layout.ofSource table options.file (.text (Text.unifyNewlines stored)) with
  | error failure =>
    exact matches_of_error (Layout.ofSource_text_error laid) (by simp) (by simp) (by simp)
  | ok layout =>
    obtain ⟨listed, kept⟩ := Disk.exists_keep accepted.listing storable.listing layout.report
    have same : ∀ path ∈ options.output,
        listed.stored (Path.normalize path) = disk.stored (Path.normalize path) := by
      intro path named
      obtain ⟨place, led⟩ := storable.output path named
      exact Disk.stored_of_keep kept led
        fun other listing => storable.distinct other listing path named
    dsimp only
    rw [Session.ok_bind, kept]
    dsimp only
    split
    · rename_i only
      exact
        { success := by simp [only]
          buildError := by simp [only]
          cause := fun _ failed => (Layout.object_error failed).cases_assembly
          layoutOnly := fun _ => ⟨fun _ => ⟨layout, rfl⟩, fun _ => rfl⟩
          output := by simp [only]
          listing := by
            rintro laid ⟨⟩
            exact lists_of_keep kept
          untouched := fun _ => same }
    · rename_i both
      exact finishing_matches accepted storable silent (by simpa using both) kept same

end Agreement

end Options

theorem run_eq_ending {toolkit : Toolkit} (lawful : toolkit.Lawful) {disk : Disk}
    {arguments : List RawText} {options : Options}
    (asked : toolkit.parse disk arguments = .ok (.assemble options)) :
    ∃ outcome, run toolkit disk arguments = .ok outcome ∧
      outcome.status = (options.ending toolkit disk).status ∧
      outcome.out = (options.ending toolkit disk).out ∧
      outcome.disk = (options.ending toolkit disk).disk := by
  refine ⟨runAssembly toolkit options disk, ?_, runAssembly_eq_ending lawful options disk⟩
  unfold run
  rw [asked]

/-- A run whose files can be read and written ends as the two passes over the read program do, and
reports what they report; warnings that are asked for change nothing of that. -/
theorem run_agrees {toolkit : Toolkit} (lawful : toolkit.Lawful) {disk : Disk}
    {arguments : List RawText} {options : Options} {table : OpcodeTable} {stored : String}
    (asked : toolkit.parse disk arguments = .ok (.assemble options))
    (silent : options.verbose = false) (storable : options.Storable disk)
    (chosen : options.Chooses disk table) (source : disk.loadText options.input = .ok stored) :
    ∃ outcome, run toolkit disk arguments = .ok outcome ∧
      options.Matches toolkit disk
        (Layout.ofSource table options.file (.text (Text.unifyNewlines stored)))
        (SicAssembler.assemble table options.file (.text (Text.unifyNewlines stored)))
        outcome.status outcome.out outcome.disk ∧
      ∀ others warnings, toolkit.parse disk others = .ok (.assemble { options with warnings }) →
        ∃ other, run toolkit disk others = .ok other ∧ other.status = outcome.status ∧
          other.out = outcome.out ∧ other.disk = outcome.disk := by
  obtain ⟨outcome, ran, status, out, left⟩ := run_eq_ending lawful asked
  refine ⟨outcome, ran, ?_, fun others warnings asked_others => ?_⟩
  · rw [status, out, left]
    exact Options.ending_matches (lawful.accepted asked) storable silent chosen source
  · obtain ⟨other, ran_other, other_status, other_out, other_left⟩ :=
      run_eq_ending lawful asked_others
    rw [Options.ending_warnings] at other_status other_out other_left
    exact ⟨other, ran_other, other_status.trans status.symm, other_out.trans out.symm,
      other_left.trans left.symm⟩

def styledProgram : String := "\x1b[1mP START 10\nA ADD A"

def styledDisk : Disk :=
  (Disk.addFile {} "p.asm" styledProgram.toUTF8).addFile "ops" "ADD 18".toUTF8

def nameDisk (name : String) : Disk := Disk.addFile {} "p.asm" (name ++ " START 10").toUTF8

theorem run_agrees_of_styledDisk :
    (∃ outcome,
      run .piped styledDisk ["p.asm", "-tops", "-o", "p.obj", "-lp.lst"] = .ok outcome ∧
      outcome.status = .success ∧
      outcome.disk.stored "p.obj" = .ok (String.toUTF8
        "Object Program:\nH ^ \x1b[1mP ^ 000010\nT ^ 000010 ^ 03 ^ 180010^ \nE ^ 000010\n") ∧
      outcome.disk.stored "p.lst" = .ok (String.toUTF8
        "Symbol Table:\nA: 0010\n\n\nIntermediate Code:\n0010 A ADD A\n0013 END\n") ∧
      ∃ other,
        run .piped styledDisk ["-W", "p.asm", "-tops", "-o", "p.obj", "-lp.lst"] = .ok other ∧
        other.status = .success) ∧
    ∃ outcome front, run .piped (nameDisk "P") ["p.asm"] = .ok outcome ∧
      outcome.out = front ++ RawText.ofString "Object Program:\nH ^ P ^ 000010\nE ^ 000010\n" := by
  have lawful : Toolkit.piped.Lawful := Toolkit.lawful_standard {} {}
  constructor
  · let options : Options :=
      { input := "p.asm", opcodes := some "ops", output := some "p.obj", listing := some "p.lst" }
    have storable : options.Storable styledDisk :=
      { listing := by rintro _ ⟨⟩; exact ⟨["p.lst"], by decide +kernel⟩
        output := by rintro _ ⟨⟩; exact ⟨["p.obj"], by decide +kernel⟩
        distinct := by rintro _ ⟨⟩ _ ⟨⟩; decide +kernel }
    have chosen : options.Chooses styledDisk (.parse (Text.unifyNewlines "ADD 18")) :=
      ⟨"ADD 18", by decide +kernel, rfl⟩
    have source : styledDisk.loadText options.input = .ok styledProgram := by decide +kernel
    have asked : Toolkit.piped.parse styledDisk ["p.asm", "-tops", "-o", "p.obj", "-lp.lst"] =
        .ok (.assemble options) := by decide +kernel
    have asked_other :
        Toolkit.piped.parse styledDisk ["-W", "p.asm", "-tops", "-o", "p.obj", "-lp.lst"] =
          .ok (.assemble { options with warnings := true }) := by decide +kernel
    obtain ⟨outcome, ran, agrees, same⟩ := run_agrees lawful asked rfl storable chosen source
    obtain ⟨layout, laid, listed⟩ := exists_of_map_ok
      (x := Layout.ofSource (.parse (Text.unifyNewlines "ADD 18")) options.file
        (.text (Text.unifyNewlines styledProgram)))
      (f := Layout.report)
      (b := "Symbol Table:\nA: 0010\n\n\nIntermediate Code:\n0010 A ADD A\n0013 END\n")
      (by decide +kernel)
    obtain ⟨program, built, reported⟩ := exists_of_map_ok
      (x := SicAssembler.assemble (.parse (Text.unifyNewlines "ADD 18")) options.file
        (.text (Text.unifyNewlines styledProgram)))
      (f := fun program => program.report false)
      (b := "Object Program:\nH ^ \x1b[1mP ^ 000010\nT ^ 000010 ^ 03 ^ 180010^ \nE ^ 000010\n")
      (by decide +kernel)
    have status : outcome.status = .success := (agrees.success rfl).mpr ⟨program, built⟩
    have object : outcome.disk.stored (Path.normalize "p.obj") = .ok (program.report false).toUTF8 :=
      agrees.output rfl program built
    have listing : outcome.disk.stored (Path.normalize "p.lst") = .ok layout.report.toUTF8 :=
      agrees.listing layout laid
    rw [show Path.normalize "p.obj" = "p.obj" by decide +kernel, reported] at object
    rw [show Path.normalize "p.lst" = "p.lst" by decide +kernel, listed] at listing
    obtain ⟨other, ran_other, other_status, _⟩ := same _ true asked_other
    exact ⟨outcome, ran, status, object, listing, other, ran_other, other_status.trans status⟩
  · let options : Options := { input := "p.asm" }
    have asked : Toolkit.piped.parse (nameDisk "P") ["p.asm"] = .ok (.assemble options) := by
      decide +kernel
    have source : (nameDisk "P").loadText options.input = .ok "P START 10" := by decide +kernel
    obtain ⟨outcome, ran, agrees, _⟩ := run_agrees lawful asked rfl
      ⟨nofun, nofun, nofun⟩ (show options.Chooses _ .standard from rfl) source
    obtain ⟨program, built, reported⟩ := exists_of_map_ok
      (x := SicAssembler.assemble .standard options.file (.text (Text.unifyNewlines "P START 10")))
      (f := fun program => program.report false)
      (b := "Object Program:\nH ^ P ^ 000010\nE ^ 000010\n") (by decide +kernel)
    obtain ⟨front, printed⟩ := agrees.output rfl program built
    rw [show program.report options.strip = _ from reported,
      lawful.shown_of_not_mem (by decide +kernel)] at printed
    exact ⟨outcome, front, ran, printed⟩

theorem run_prints_without_control_sequence :
    ∃ outcome program,
      Toolkit.piped.parse (nameDisk "\x1b[1mP") ["p.asm"] = .ok (.assemble { input := "p.asm" }) ∧
      (nameDisk "\x1b[1mP").readText "p.asm" = .ok "\x1b[1mP START 10" ∧
      SicAssembler.assemble .standard "p.asm" (.text "\x1b[1mP START 10") = .ok program ∧
      run .piped (nameDisk "\x1b[1mP") ["p.asm"] = .ok outcome ∧ outcome.status = .success ∧
      ¬∃ front, outcome.out = front ++ RawText.ofString (program.report false) := by
  obtain ⟨outcome, ran, facts⟩ := exists_of_map_ok
    (x := run .piped (nameDisk "\x1b[1mP") ["p.asm"])
    (f := fun outcome => decide (outcome.status = .success ∧ Glyph.controlStart ∉ outcome.out))
    (b := true) (by decide +kernel)
  obtain ⟨status, absent⟩ := of_decide_eq_true facts
  obtain ⟨program, built, present⟩ := exists_of_map_ok
    (x := SicAssembler.assemble .standard "p.asm" (.text "\x1b[1mP START 10"))
    (f := fun program => decide (Glyph.controlStart ∈ RawText.ofString (program.report false)))
    (b := true) (by decide +kernel)
  refine ⟨outcome, program, by decide +kernel, by decide +kernel, built, ran, status, ?_⟩
  rintro ⟨front, printed⟩
  rw [printed] at absent
  exact absent (List.mem_append_right _ (of_decide_eq_true present))

end Command

end SicAssembler
