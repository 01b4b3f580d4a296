import SicAssembler.Proofs.Concatenation
import SicAssembler.Proofs.PrintedPrograms

/-!
Lines that leave no trace. An idle line sets no base, has no place in memory and enters no label in
the symbol table (`SourceLine.Idle`). A program with such a line among others is laid out as without
it: the two layouts agree in all but the numbers of the lines behind it and the warnings about the
line itself (`Layout.agrees_of_idle`).
-/

namespace SicAssembler

variable {table : OpcodeTable} {file text : String} {earlier later : List SourceLine}
  {line : SourceLine} {before after : List LineInput} {shorter longer : Source}

structure SourceLine.Idle (table : OpcodeTable) (line : SourceLine) : Prop where
  plain : line.origin? = none
  placeless : ¬line.Occupies table
  nameless : ¬line.Defines

/-! ### One line more -/

namespace SourceLine.Idle

variable (idle : line.Idle table)

include idle

theorem acceptable : line.Acceptable := by
  intro reserves
  refine (idle.placeless (.inl ?_)).elim
  rcases reserves with same | same <;> simp [same]

theorem startOf_insert : startOf (earlier ++ line :: later) = startOf (earlier ++ later) := by
  simp [startOf, idle.plain]

theorem nameOf_insert : nameOf (earlier ++ line :: later) = nameOf (earlier ++ later) := by
  simp [nameOf, idle.plain]

theorem counterAfter_insert :
    counterAfter table (earlier ++ line :: later) = counterAfter table (earlier ++ later) := by
  induction later using List.reverseRecOn with
  | nil => rw [counterAfter_concat idle.plain, if_neg idle.placeless, List.append_nil, Nat.add_zero]
  | append_singleton later last ih =>
    rw [← List.cons_append, ← List.append_assoc, ← List.append_assoc]
    cases origin : last.origin? with
    | some address => rw [counterAfter_concat_of_origin origin, counterAfter_concat_of_origin origin]
    | none => rw [counterAfter_concat origin, counterAfter_concat origin, ih]

theorem located_insert (earlier later : List SourceLine) :
    ∃ rest, located table (earlier ++ later) = located table earlier ++ rest ∧
      located table (earlier ++ line :: later) =
        located table earlier ++ (line, counterAfter table earlier) :: rest := by
  induction later using List.reverseRecOn with
  | nil => exact ⟨[], by simp, located_concat earlier line⟩
  | append_singleton later last ih =>
    obtain ⟨rest, without, with_line⟩ := ih
    refine ⟨rest ++ [(last, counterAfter table (earlier ++ later))], ?_, ?_⟩
    · rw [← List.append_assoc, located_concat, without, List.append_assoc]
    · rw [← List.cons_append, ← List.append_assoc, located_concat, with_line,
        idle.counterAfter_insert, List.append_assoc, List.cons_append]

theorem recordsOf_insert :
    recordsOf table (earlier ++ line :: later) = recordsOf table (earlier ++ later) := by
  obtain ⟨rest, without, with_line⟩ := idle.located_insert earlier later
  rw [recordsOf, recordsOf, without, with_line]
  simp [idle.placeless]

theorem bindingsOf_insert :
    bindingsOf table (earlier ++ line :: later) = bindingsOf table (earlier ++ later) := by
  obtain ⟨rest, without, with_line⟩ := idle.located_insert earlier later
  rw [bindingsOf, bindingsOf, without, with_line]
  simp [idle.nameless]

theorem addressOf?_insert (label : String) :
    addressOf? table (earlier ++ line :: later) label =
      addressOf? table (earlier ++ later) label := by
  obtain ⟨rest, without, with_line⟩ := idle.located_insert earlier later
  rw [addressOf?, addressOf?, without, with_line]
  simp [idle.nameless]

/-- What an idle line is warned about does not depend on the lines before it. -/
theorem warnings_eq (before : List SourceLine) :
    line.warnings table before = line.warnings table [] := by
  have alone : ∀ previous address, line.labelWarnings previous address =
      line.labelWarnings none 0 := by
    intro previous address
    unfold labelWarnings
    split_ifs with unlabelled valid
    · rfl
    · exact (idle.nameless ⟨fun start => unlabelled (.inl start), valid⟩).elim
    · rfl
  rw [warnings, warnings, alone, alone (Option.map _ _)]

end SourceLine.Idle

/-! ### The lines behind it -/

theorem map_bare_append_moved (n : Int) (earlier later : List SourceLine) :
    (earlier ++ later.map (SourceLine.moved n)).map SourceLine.bare =
      (earlier ++ later).map SourceLine.bare := by
  rw [List.map_append, List.map_map, List.map_append]
  rfl

/-- What does not see a change of lines takes lines for the same that are alike after it. -/
theorem eq_of_blind {β : Type} {seen : List SourceLine → β} {f : SourceLine → SourceLine}
    (blind : ∀ lines, seen (lines.map f) = seen lines) {lines others : List SourceLine}
    (same : lines.map f = others.map f) : seen lines = seen others := by
  rw [← blind, same, blind]

namespace SourceLine.Idle

variable (idle : line.Idle table)

include idle

theorem diagnosticsOf_insert (earlier later : List SourceLine) (n : Int) :
    ∃ rest, diagnosticsOf table (earlier ++ later) = diagnosticsOf table earlier ++ rest ∧
      diagnosticsOf table (earlier ++ line :: later.map (SourceLine.moved n)) =
        diagnosticsOf table earlier ++ line.warnings table [] ++ rest.map (Diagnostic.moved n) := by
  induction later using List.reverseRecOn with
  | nil => exact ⟨[], by simp, by simp [diagnosticsOf_concat, idle.warnings_eq earlier]⟩
  | append_singleton later last ih =>
    obtain ⟨rest, without, with_line⟩ := ih
    have unmoved := map_bare_append_moved n earlier later
    have counter : counterAfter table (earlier ++ line :: later.map (SourceLine.moved n)) =
        counterAfter table (earlier ++ later) :=
      idle.counterAfter_insert.trans
        (eq_of_blind keepsFields_bare.counterAfter_map unmoved)
    have address : ∀ label,
        addressOf? table (earlier ++ line :: later.map (SourceLine.moved n)) label =
          addressOf? table (earlier ++ later) label := fun label =>
      (idle.addressOf?_insert label).trans (congrFun (eq_of_blind
        (fun lines => funext (keepsFields_bare.addressOf?_map lines)) unmoved) label)
    refine ⟨rest ++ last.warnings table (earlier ++ later), ?_, ?_⟩
    · rw [← List.append_assoc, diagnosticsOf_concat, without, List.append_assoc]
    · rw [List.map_append, List.map_singleton, ← List.cons_append, ← List.append_assoc,
        diagnosticsOf_concat, with_line,
        (keepsFields_moved n).warnings (SourceLine.warning_moved n) counter address last, List.map_append,
        List.append_assoc _ _ (List.map _ _)]

end SourceLine.Idle

/-- A line put among those of a source is read there, and the lines behind it have moved on. -/
theorem Source.read_insert {lines : List SourceLine} (without : shorter.inputs = before ++ after)
    (split : longer.inputs = before ++ .text text :: after)
    (read : shorter.read file = .ok lines) :
    ∃ earlier later, lines = earlier ++ later ∧
      longer.read file = .ok (earlier ++
        SourceLine.read file (before.length + 1 : Nat) text :: later.map (SourceLine.moved 1)) := by
  rw [Source.read, numbered, without, List.zipIdx_append, List.mapM_append] at read
  obtain ⟨earlier, front, read⟩ := bind_ok read
  obtain ⟨later, back, read⟩ := bind_ok read
  refine ⟨earlier, later, pure_ok read, ?_⟩
  apply mapM_ok_iff.mpr
  rw [numbered, split, List.zipIdx_append, List.zipIdx_cons]
  refine List.rel_append (mapM_ok_iff.mp front) (.cons ?_ ?_)
  · rw [Nat.add_comm 1]
    rfl
  · rw [Nat.add_comm (1 + before.length) 1, ← List.map_snd_add_zipIdx_eq_zipIdx,
      List.forall₂_map_left_iff, List.forall₂_map_right_iff]
    exact (mapM_ok_iff.mp back).imp fun _ _ taken => LineInput.read_add 1 taken

/-! ### Layouts -/

namespace Layout

variable {layout other : Layout}

/-- Layouts that differ in the numbers of lines and in diagnostics at most. -/
structure Agrees (layout other : Layout) : Prop where
  symbols : layout.symbols = other.symbols
  start : layout.start = other.start
  name : layout.name = other.name
  counter : layout.counter = other.counter
  records : layout.records.map Record.unnumbered = other.records.map Record.unnumbered

namespace Agrees

variable (agrees : layout.Agrees other)

include agrees

theorem report : layout.report = other.report := by
  have shown : ∀ records : List Record,
      records.map Record.text = (records.map Record.unnumbered).map Record.text := by
    intro records
    rw [List.map_map]
    rfl
  rw [report_eq, report_eq, reportLines, reportLines, agrees.symbols, shown layout.records,
    agrees.records, ← shown]

theorem object (codes : OpcodeTable) : layout.object codes = other.object codes :=
  object_eq_of_unnumbered agrees.start agrees.name agrees.symbols agrees.records codes

end Agrees

theorem isOk_ofSource_insert (without : shorter.inputs = before ++ after)
    (split : longer.inputs = before ++ .text text :: after)
    (idle : (SourceLine.read file (before.length + 1 : Nat) text).Idle table) :
    (ofSource table file shorter).isOk = true ↔ (ofSource table file longer).isOk = true := by
  have acceptable : (LineInput.text text).Acceptable :=
    (LineInput.acceptable_text_iff file _ text).mpr idle.acceptable
  simp only [isOk_ofSource_iff, without, split, List.forall_mem_append, List.forall_mem_cons,
    acceptable, true_and]

/-- A program is laid out alike with an idle line and without it. -/
theorem agrees_of_idle (without : shorter.inputs = before ++ after)
    (split : longer.inputs = before ++ .text text :: after)
    (taken : line = SourceLine.read file (before.length + 1 : Nat) text) (idle : line.Idle table)
    (short : ofSource table file shorter = .ok other)
    (long : ofSource table file longer = .ok layout) :
    other.Agrees layout ∧ ∃ front back, other.diagnostics = front ++ back ∧
      layout.diagnostics =
        front ++ line.warnings table [] ++ back.map (Diagnostic.moved 1) := by
  obtain ⟨lines, read, other_reflects⟩ := reflects_of_ofSource short
  obtain ⟨more, longer_read, reflects⟩ := reflects_of_ofSource long
  obtain ⟨earlier, later, rfl, reread⟩ := Source.read_insert without split read
  rw [← taken] at reread
  obtain rfl := Except.ok.inj (reread.symm.trans longer_read)
  have keeps := keepsFields_bare
  have unmoved := map_bare_append_moved 1 earlier later
  have bindings : bindingsOf table (earlier ++ line :: later.map (SourceLine.moved 1)) =
      bindingsOf table (earlier ++ later) :=
    idle.bindingsOf_insert.trans (eq_of_blind keeps.bindingsOf_map unmoved)
  have start : startOf (earlier ++ line :: later.map (SourceLine.moved 1)) =
      startOf (earlier ++ later) :=
    idle.startOf_insert.trans (eq_of_blind keeps.startOf_map unmoved)
  have name : nameOf (earlier ++ line :: later.map (SourceLine.moved 1)) =
      nameOf (earlier ++ later) :=
    idle.nameOf_insert.trans (eq_of_blind keeps.nameOf_map unmoved)
  have counter : counterAfter table (earlier ++ line :: later.map (SourceLine.moved 1)) =
      counterAfter table (earlier ++ later) :=
    idle.counterAfter_insert.trans (eq_of_blind keeps.counterAfter_map unmoved)
  refine ⟨⟨?_, ?_, ?_, ?_, ?_⟩, ?_⟩
  · rw [other_reflects.symbols, reflects.symbols, bindings]
  · rw [other_reflects.start, reflects.start, start]
  · rw [other_reflects.name, reflects.name, name]
  · rw [other_reflects.counter, reflects.counter, counter]
  · have records : (recordsOf table (earlier ++ later.map (SourceLine.moved 1))).map
        Record.unnumbered = (recordsOf table (earlier ++ later)).map Record.unnumbered := by
      rw [← recordsOf_map_bare, unmoved, recordsOf_map_bare]
    rw [other_reflects.records, reflects.records, counter, idle.recordsOf_insert, List.map_append,
      List.map_append, records]
  · obtain ⟨rest, without_line, with_line⟩ := idle.diagnosticsOf_insert earlier later 1
    refine ⟨diagnosticsOf table earlier, rest, ?_, ?_⟩
    · rw [diagnostics_eq short read, without_line]
    · rw [diagnostics_eq long longer_read, with_line]

end Layout

end SicAssembler
