import Mathlib.Tactic.TFAE
import SicAssembler.Proofs.Failures
import SicAssembler.Proofs.History
import SicAssembler.Proofs.IdleLines

/-!
Programs without a start address. A program has one if and only if some `START` line has an operand
of hexadecimal digits (`SourceLine.Begins`). Whether it has one is asked in several places, of the
layout, of the second pass, of its report and of a session, and they all give the same answer
(`Layout.detects_missing_start`). A `START` line with another operand is idle: it neither sets an
address nor takes back one that was set.
-/

namespace SicAssembler

variable {line : SourceLine} {lines : List SourceLine} {table codes : OpcodeTable}

/-! ### Lines that set a start address -/

def Text.IsHexDigit (c : Char) : Prop :=
  '0' ≤ c ∧ c ≤ '9' ∨ 'A' ≤ c ∧ c ≤ 'F' ∨ 'a' ≤ c ∧ c ≤ 'f'

instance : DecidablePred Text.IsHexDigit := fun _ => inferInstanceAs (Decidable (_ ∨ _ ∨ _))

theorem Text.isSome_hexDigit?_iff {c : Char} : (hexDigit? c).isSome = true ↔ IsHexDigit c := by
  have decimal : c.isDigit = true ↔ '0' ≤ c ∧ c ≤ '9' := by
    rw [isDigit_iff, Char.le_def, Char.le_def, UInt32.le_iff_toNat_le, UInt32.le_iff_toNat_le]
    rfl
  unfold hexDigit? IsHexDigit
  rw [← decimal]
  split_ifs with digit upper lower <;> simp [*]

theorem Text.isSome_hexValue?_iff {text : String} :
    (hexValue? text).isSome = true ↔ text ≠ "" ∧ ∀ c ∈ text.toList, IsHexDigit c := by
  simp only [← isSome_hexDigit?_iff, ← String.toList_eq_nil_iff.ne, ne_eq]
  rw [← ne_eq, ← isHex_iff, hexValue?]
  split_ifs with hexadecimal <;> simp [hexadecimal]

namespace SourceLine

/-- A `START` line with an operand of one or more hexadecimal digits. -/
def Begins (line : SourceLine) : Prop :=
  line.mnemonic = "START" ∧ line.operand ≠ "" ∧ ∀ c ∈ line.operand.toList, Text.IsHexDigit c

instance : DecidablePred Begins := fun line =>
  letI : Decidable (∀ c ∈ line.operand.toList, Text.IsHexDigit c) :=
    List.decidableBAll Text.IsHexDigit line.operand.toList
  inferInstanceAs (Decidable (_ ∧ _ ∧ _))

theorem isSome_origin?_iff : line.origin?.isSome = true ↔ line.Begins := by
  rw [origin?, Begins, ← Text.isSome_hexValue?_iff]
  split_ifs with start <;> simp [start]

/-- A `START` line that sets no address leaves no trace. -/
theorem idle_of_malformed (start : line.mnemonic = "START") (malformed : ¬line.Begins) :
    line.Idle table where
  plain := Option.not_isSome_iff_eq_none.mp fun set => malformed (isSome_origin?_iff.mp set)
  placeless := fun occupies => occupies.mnemonic_ne_start start
  nameless := fun defines => defines.1 start

end SourceLine

theorem startOf_eq_none_iff : startOf lines = none ↔ ∀ line ∈ lines, ¬line.Begins := by
  simp only [startOf, List.getLast?_eq_none_iff, List.filterMap_eq_nil_iff,
    ← SourceLine.isSome_origin?_iff, Option.not_isSome_iff_eq_none]

/-! ### Where it is asked for -/

theorem Step.layout_perform {session : Session} {step : Step} {file : String}
    {source : Source} {layout : Layout}
    (asked : step.program? session.disk = some (file, source))
    (laid : Layout.ofSource session.table file source = .ok layout) :
    (step.perform session).layout = some layout := by
  rw [(fields_perform session step).2.2, work?, asked, Option.bind_some, Work.map_layout_of?,
    laid]
  rfl

namespace Layout

theorem object_eq_undefinedStart_iff (layout : Layout) :
    layout.object codes = .error (.assembly .undefinedStart) ↔ layout.start = none := by
  rcases layout.object_cases codes with
    ⟨none, refused⟩ | ⟨started, _, digits, refused⟩ | ⟨started, _, program, built⟩
  · simp [none, refused]
  · simp [started, refused]
  · simp [started, built]

/-- What a report on the object program shows if there is a start address. -/
theorem objectReport_of_start {layout : Layout} (started : layout.start ≠ none)
    (codes : OpcodeTable) (strip : Bool) :
    (∃ program, layout.object codes = .ok program ∧
      layout.objectReport codes strip = .ok ("Object Program:\n" ++ program.text strip)) ∨
    ∃ digits, layout.object codes = .error (.numeral (.tooLong digits)) ∧
      layout.objectReport codes strip = .error (.numeral (.tooLong digits)) := by
  rcases layout.object_cases codes with
    ⟨none, _⟩ | ⟨_, _, digits, refused⟩ | ⟨_, _, program, built⟩
  · exact (started none).elim
  · exact .inr ⟨digits, refused, by rw [objectReport, refused]⟩
  · exact .inl ⟨program, built, by rw [objectReport, built]⟩

theorem objectReport_eq_missing_iff (layout : Layout) (strip : Bool) :
    layout.objectReport codes strip = .ok "Error: Start address not defined." ↔
      layout.start = none := by
  constructor
  · intro told
    by_contra started
    rcases objectReport_of_start started codes strip with
      ⟨program, _, shown⟩ | ⟨digits, _, refused⟩
    · -- The two texts differ in their first character.
      have same := congrArg String.toList (Except.ok.inj (shown.symm.trans told))
      simp at same
    · cases refused.symm.trans told
  · intro none
    rw [objectReport, (object_eq_undefinedStart_iff layout).mpr none]
    rfl

/-- A missing start address is seen alike by all who look for it: in the lines, in the layout, by the
second pass, in its report and by a session that was asked to lay the program out. If there is one,
the report shows the object program or fails as the second pass does; and a `START` line that sets
no address may be taken out of the program without a change of start, name and counter. -/
theorem detects_missing_start {session : Session} {step : Step} {file : String}
    {source : Source} {layout : Layout}
    (asked : step.program? session.disk = some (file, source))
    (laid : ofSource session.table file source = .ok layout) (codes : OpcodeTable) (strip : Bool) :
    (∃ lines, source.read file = .ok lines ∧
      List.TFAE [∀ line ∈ lines, ¬line.Begins,
        layout.start = none,
        layout.object codes = .error (.assembly .undefinedStart),
        layout.objectReport codes strip = .ok "Error: Start address not defined.",
        (step.perform session).hasErrors = true]) ∧
    (layout.start ≠ none →
      (∃ program, layout.object codes = .ok program ∧
        layout.objectReport codes strip = .ok ("Object Program:\n" ++ program.text strip)) ∨
      ∃ digits, layout.object codes = .error (.numeral (.tooLong digits)) ∧
        layout.objectReport codes strip = .error (.numeral (.tooLong digits))) ∧
    ∀ before text after line, source.inputs = before ++ .text text :: after →
      line = SourceLine.read file (before.length + 1 : Nat) text →
      line.mnemonic = "START" → ¬line.Begins →
      ∀ shorter : Source, shorter.inputs = before ++ after →
        ∃ less, ofSource session.table file shorter = .ok less ∧ less.start = layout.start ∧
          less.name = layout.name ∧ less.counter = layout.counter := by
  refine ⟨?_, fun started => objectReport_of_start started codes strip, ?_⟩
  · obtain ⟨lines, read, reflects⟩ := reflects_of_ofSource laid
    refine ⟨lines, read, ?_⟩
    tfae_have 1 ↔ 2 := by
      rw [reflects.start, Option.map_eq_none_iff, startOf_eq_none_iff]
    tfae_have 2 ↔ 3 := (object_eq_undefinedStart_iff layout).symm
    tfae_have 2 ↔ 4 := (objectReport_eq_missing_iff layout strip).symm
    tfae_have 2 ↔ 5 := by
      rw [Session.hasErrors, Step.layout_perform asked laid]
      simp [hasStart]
    tfae_finish
  · intro before text after line split taken start malformed shorter without
    have idle : line.Idle session.table := SourceLine.idle_of_malformed start malformed
    have accepted : (ofSource session.table file shorter).isOk = true :=
      (isOk_ofSource_insert without split (taken ▸ idle)).mpr (by rw [laid]; rfl)
    obtain ⟨less, short⟩ := exists_ok accepted
    obtain ⟨agrees, _⟩ := agrees_of_idle without split taken idle short laid
    exact ⟨less, short, agrees.start, agrees.name, agrees.counter⟩

def neverStarted : Source :=
  .lines [.text "P START 1G", .text "A ADD A", .text "Q START"]

def startedAtZero : Source :=
  .lines [.text "P START 00", .text "A ADD A", .text "Q START x"]

theorem detects_missing_start_of_malformedStarts :
    (∃ layout, ofSource oneInstruction unnamedSource neverStarted = .ok layout ∧
      layout.start = none ∧
      layout.objectReport oneInstruction true = .ok "Error: Start address not defined." ∧
      ((Step.assemble unnamedSource neverStarted).perform
        { table := oneInstruction }).hasErrors = true) ∧
    ∃ layout less, ofSource oneInstruction unnamedSource startedAtZero = .ok layout ∧
      ofSource oneInstruction unnamedSource (.lines [.text "P START 00", .text "A ADD A"]) =
        .ok less ∧
      less.start = layout.start ∧ less.name = layout.name ∧ less.counter = layout.counter ∧
      (∃ program, layout.object oneInstruction = .ok program ∧
        layout.objectReport oneInstruction false =
          .ok ("Object Program:\n" ++ program.text false)) ∧
      ¬((Step.layOut unnamedSource startedAtZero).perform
        { table := oneInstruction }).hasErrors = true := by
  constructor
  · obtain ⟨layout, laid⟩ := exists_ok
      (x := ofSource oneInstruction unnamedSource neverStarted) (by decide +kernel)
    obtain ⟨⟨lines, read, alike⟩, _⟩ := detects_missing_start
      (show (Step.assemble unnamedSource neverStarted).program?
        (Session.disk { table := oneInstruction }) = some (unnamedSource, neverStarted) from rfl)
      laid oneInstruction true
    have none : ∀ line ∈ lines, ¬line.Begins := of_decide_eq_true
      (value_of_ok read (fun lines => decide (∀ line ∈ lines, ¬line.Begins)) (by decide +kernel))
    exact ⟨layout, laid, (alike.out 0 1).mp none, (alike.out 0 3).mp none, (alike.out 0 4).mp none⟩
  · obtain ⟨layout, laid⟩ := exists_ok
      (x := ofSource oneInstruction unnamedSource startedAtZero) (by decide +kernel)
    obtain ⟨⟨lines, read, alike⟩, reported, kept⟩ := detects_missing_start
      (show (Step.layOut unnamedSource startedAtZero).program?
        (Session.disk { table := oneInstruction }) = some (unnamedSource, startedAtZero) from rfl)
      laid oneInstruction false
    have start : layout.start = some 0 := value_of_ok laid Layout.start (by decide +kernel)
    obtain ⟨less, short, same_start, name, counter⟩ := kept
      [.text "P START 00", .text "A ADD A"] "Q START x" [] _ rfl rfl (by decide +kernel)
      (by decide +kernel) (.lines [.text "P START 00", .text "A ADD A"]) rfl
    have started : layout.start ≠ none := by simp [start]
    have built : (layout.object oneInstruction).isOk = true :=
      value_of_ok laid (fun layout => (layout.object oneInstruction).isOk) (by decide +kernel)
    refine ⟨layout, less, laid, short, same_start, name, counter, (reported started).resolve_right ?_,
      fun errors => started ((alike.out 4 1).mp errors)⟩
    rintro ⟨digits, refused, _⟩
    rw [refused] at built
    cases built

end Layout

end SicAssembler
