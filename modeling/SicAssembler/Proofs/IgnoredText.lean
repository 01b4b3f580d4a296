import SicAssembler.Proofs.IdleLines
import SicAssembler.Proofs.LineEnds
import SicAssembler.Proofs.Runs

/-!
Text that is ignored. There is no sign for remarks: they stand on lines of their own, without a label
and under a mnemonic that nothing is known by, or behind the operand of a line. The first are idle
(`SourceLine.idle_of_unknown`). The second are read by nobody, for a separator and what follows it
neither change the first three fields of a line nor the column of the third
(`SourceLine.read_remark`). So no remark of either kind is seen in a layout or in what is made of it
(`Layout.ignores_remarks`).
-/

namespace SicAssembler

variable {table : OpcodeTable} {file text extra : String} {line : SourceLine} {c : Char}
  {before after : List LineInput} {source other : Source}

/-! ### Remarks on lines of their own -/

namespace SourceLine

theorem idle_of_unknown (unlabelled : line.label = "")
    (unknown : line.mnemonic = "" ∨ Operation.classify table line.mnemonic = .unknown) :
    line.Idle table := by
  have classified : Operation.classify table line.mnemonic = .unknown := by
    rcases unknown with empty | unknown
    · rw [empty, Operation.classify_eq]
      simp
    · exact unknown
  rw [Operation.classify_eq] at classified
  split_ifs at classified with start words reserved filled word known
  refine ⟨origin?_of_not_start start, ?_, ?_⟩
  · rintro (directive | ⟨named, _, member⟩)
    · simp [words, reserved, filled, word] at directive
    · exact known ⟨named, member⟩
  · rintro ⟨_, valid⟩
    rw [unlabelled, not_isLabel_empty] at valid
    cases valid

theorem warnings_of_unlabelled (unlabelled : line.label = "") (idle : line.Idle table)
    (other : line.mnemonic ≠ "START") :
    line.warnings table [] =
      if line.mnemonic = "" ∨ line.mnemonic = "END" then []
      else [line.warning .unknownMnemonic
        ("unknown opcode '" ++ line.mnemonic ++ "', line ignored")] := by
  have filled : line.mnemonic ≠ "BYTE" := fun same => idle.placeless (.inl (by simp [same]))
  rw [warnings, labelWarnings, if_pos (.inr unlabelled), List.nil_append, fieldWarnings,
    if_neg other, if_neg filled]
  simp only [idle.placeless, or_false]

end SourceLine

/-! ### Remarks behind an operand -/

theorem Text.ended_trimLineEnd (text : String) :
    Text.Ended text.toList (Text.trimLineEnd text).toList := by
  refine ⟨(text.toList.reverse.takeWhile Text.isLineEnd).reverse, fun c member => ?_, ?_⟩
  · exact List.mem_takeWhile_imp (List.mem_reverse.mp member)
  · rw [Text.trimLineEnd, String.toList_ofList, ← List.reverse_append,
      List.takeWhile_append_dropWhile, List.reverse_reverse]

theorem fields_trimLineEnd (operand : nthField text 2 ≠ "") :
    fields (Text.trimLineEnd text) = fields text := by
  refine (fields_of_ended (Text.ended_trimLineEnd text) fun empty => operand ?_).symm
  rw [← nthField_trimLineEnd, empty]
  decide +kernel

/-- Fields before a separator are not changed by what follows it. -/
theorem exists_fields_remark (separator : c ∈ separators) (present : text ≠ "") (extra : String) :
    ∃ more, fields (text ++ String.singleton c ++ extra) = fields text ++ more := by
  have chars : (text ++ String.singleton c ++ extra).toList = text.toList ++ c :: extra.toList := by
    simp
  have parted : Parted text.toList (c :: extra.toList) := by
    refine .inr fun d first => ?_
    rw [← Option.some.inj first]
    exact isBlank_iff_mem_separators.mpr separator
  obtain ⟨first, others, nonempty⟩ := List.exists_cons_of_ne_nil
    (fun empty => present (String.toList_eq_nil_iff.mp empty))
  refine ⟨fieldsFrom (1 + text.toList.length) (c :: extra.toList), ?_⟩
  rw [fields, fields, chars, fieldsFrom_append parted, ← List.append_assoc, nonempty]
  rfl

namespace SourceLine

def withText (text : String) (line : SourceLine) : SourceLine :=
  { line with text }

theorem keepsFields_withText (text : String) : KeepsFields (withText text) :=
  ⟨fun _ => rfl, fun _ => rfl, fun _ => rfl⟩

theorem withText_withText (text other : String) (line : SourceLine) :
    (line.withText other).withText text = line.withText text := rfl

theorem acceptable_withText (text : String) (line : SourceLine) :
    (line.withText text).Acceptable ↔ line.Acceptable := Iff.rfl

/-- A remark behind an operand is no part of what is read. -/
theorem read_remark (separator : c ∈ separators) (operand : nthField text 2 ≠ "") (extra : String)
    (file : String) (number : Int) :
    read file number (text ++ String.singleton c ++ extra) =
      (read file number text).withText
        (Text.trimLineEnd (text ++ String.singleton c ++ extra)) := by
  have present : text ≠ "" := by
    rintro rfl
    exact operand (by decide +kernel)
  have long : 2 < (fields text).length :=
    Nat.lt_of_not_le fun short => operand (nthField_succ_eq_empty_iff.mpr short)
  obtain ⟨more, joined⟩ := exists_fields_remark separator present extra
  have same : ∀ i ≤ 2,
      (fields (text ++ String.singleton c ++ extra))[i]? = (fields text)[i]? := by
    intro i small
    rw [joined, List.getElem?_append_left (by omega)]
  have operand_again : nthField (text ++ String.singleton c ++ extra) 2 ≠ "" := by
    rwa [nthField, same 2 le_rfl]
  simp only [read, withText, fields_trimLineEnd operand, fields_trimLineEnd operand_again,
    same 0 (by omega), same 1 (by omega), same 2 le_rfl]

end SourceLine

/-! ### Layouts -/

namespace Layout

variable {layout again : Layout} {lines others : List SourceLine}

/-- The texts of the lines are not seen in a layout. -/
theorem eq_of_withText (laid : ofSource table file source = .ok layout)
    (laid_again : ofSource table file other = .ok again) (read : source.read file = .ok lines)
    (reread : other.read file = .ok others)
    (same : others.map (SourceLine.withText "") = lines.map (SourceLine.withText "")) :
    again = layout := by
  obtain ⟨_, here, reflects⟩ := reflects_of_ofSource laid
  obtain rfl := Except.ok.inj (read.symm.trans here)
  obtain ⟨_, there, again_reflects⟩ := reflects_of_ofSource laid_again
  obtain rfl := Except.ok.inj (reread.symm.trans there)
  have keeps := SourceLine.keepsFields_withText ""
  have records : recordsOf table others = recordsOf table lines :=
    eq_of_blind (fun lines => (keeps.recordsOf_map id (fun _ _ => rfl) lines).trans (List.map_id _))
      same
  have diagnostics : diagnosticsOf table others = diagnosticsOf table lines := by
    have silent : ∀ (line : SourceLine) kind message,
        (line.withText "").warning kind message = id (line.warning kind message) :=
      fun _ _ _ => rfl
    exact eq_of_blind (fun lines => (keeps.diagnosticsOf_map silent lines).trans (List.map_id _)) same
  have counter : counterAfter table others = counterAfter table lines :=
    eq_of_blind keeps.counterAfter_map same
  have bindings : bindingsOf table others = bindingsOf table lines :=
    eq_of_blind keeps.bindingsOf_map same
  have start : startOf others = startOf lines := eq_of_blind keeps.startOf_map same
  have name : nameOf others = nameOf lines := eq_of_blind keeps.nameOf_map same
  change Layout.mk _ _ _ _ _ _ _ = Layout.mk _ _ _ _ _ _ _
  rw [Layout.mk.injEq]
  refine ⟨?_, ?_, ?_, ?_, ?_, ?_, again_reflects.kept.trans reflects.kept.symm⟩
  · rw [again_reflects.symbols, reflects.symbols, bindings]
  · rw [again_reflects.records, reflects.records, records, counter]
  · rw [again_reflects.start, reflects.start, start]
  · rw [again_reflects.name, reflects.name, name]
  · rw [again_reflects.counter, reflects.counter, counter]
  · rw [diagnostics_eq laid_again reread, diagnostics_eq laid read, diagnostics]

theorem isOk_ofSource_remark (split : source.inputs = before ++ .text text :: after)
    (separator : c ∈ separators) (operand : nthField text 2 ≠ "")
    (extended : other.inputs = before ++ .text (text ++ String.singleton c ++ extra) :: after) :
    (ofSource table file other).isOk = true ↔ (ofSource table file source).isOk = true := by
  have acceptable : (LineInput.text (text ++ String.singleton c ++ extra)).Acceptable ↔
      (LineInput.text text).Acceptable := by
    rw [LineInput.acceptable_text_iff file 1, LineInput.acceptable_text_iff file 1,
      SourceLine.read_remark separator operand, SourceLine.acceptable_withText]
  simp only [isOk_ofSource_iff, split, extended, List.forall_mem_append, List.forall_mem_cons,
    acceptable]

theorem eq_of_remark (split : source.inputs = before ++ .text text :: after)
    (separator : c ∈ separators) (operand : nthField text 2 ≠ "")
    (extended : other.inputs = before ++ .text (text ++ String.singleton c ++ extra) :: after)
    (laid : ofSource table file source = .ok layout)
    (laid_again : ofSource table file other = .ok again) : again = layout := by
  obtain ⟨lines, read, _⟩ := reflects_of_ofSource laid
  obtain ⟨earlier, later, number, rfl, _, _, exchange⟩ := Source.exists_split_of_read split read
  have reread := exchange other _ extended
  rw [SourceLine.read_remark separator operand] at reread
  apply eq_of_withText laid laid_again read reread
  simp only [List.map_append, List.map_cons, SourceLine.withText_withText]

/-- Remarks change nothing. A line without a label whose mnemonic is missing or not known may be
taken out of a program, and anything may follow the operand of a line behind a separator: the program
is laid out if and only if it was, with the same symbols, start, name, counter and records up to the
numbers of lines, the same report and the same outcome of the second pass. No diagnostics are lost
but the warning about the line that was taken out. -/
theorem ignores_remarks (table : OpcodeTable) (file : String) {text : String}
    {before after : List LineInput} {source : Source} {line : SourceLine}
    (split : source.inputs = before ++ .text text :: after)
    (taken : line = SourceLine.read file (before.length + 1 : Nat) text) :
    (line.label = "" →
      line.mnemonic = "" ∨ Operation.classify table line.mnemonic = .unknown →
      ∀ shorter : Source, shorter.inputs = before ++ after →
        ((ofSource table file shorter).isOk = true ↔ (ofSource table file source).isOk = true) ∧
        ∀ layout less, ofSource table file source = .ok layout →
          ofSource table file shorter = .ok less →
          less.symbols = layout.symbols ∧ less.start = layout.start ∧ less.name = layout.name ∧
          less.counter = layout.counter ∧
          less.records.map Record.unnumbered = layout.records.map Record.unnumbered ∧
          less.report = layout.report ∧ (∀ codes, less.object codes = layout.object codes) ∧
          ∃ front own back, less.diagnostics = front ++ back ∧
            layout.diagnostics = front ++ own ++ back.map (Diagnostic.moved 1) ∧
            own = if line.mnemonic = "" ∨ line.mnemonic = "END" then []
              else [{ kind := .unknownMnemonic
                      message := "unknown opcode '" ++ line.mnemonic ++ "', line ignored"
                      location := some line.location }]) ∧
    (line.operand ≠ "" → ∀ c ∈ separators, ∀ (extra : String) (longer : Source),
      longer.inputs = before ++ .text (text ++ String.singleton c ++ extra) :: after →
        ((ofSource table file longer).isOk = true ↔ (ofSource table file source).isOk = true) ∧
        ∀ layout more, ofSource table file source = .ok layout →
          ofSource table file longer = .ok more → more = layout) := by
  constructor
  · intro unlabelled unknown shorter without
    have idle := SourceLine.idle_of_unknown unlabelled unknown
    refine ⟨isOk_ofSource_insert without split (taken ▸ idle), fun layout less laid short => ?_⟩
    obtain ⟨agrees, front, back, fewer, all⟩ :=
      agrees_of_idle without split taken idle short laid
    have other : line.mnemonic ≠ "START" := by
      rintro start
      rcases unknown with empty | unknown
      · simp [start] at empty
      · simp [start, Operation.classify_eq] at unknown
    exact ⟨agrees.symbols, agrees.start, agrees.name, agrees.counter, agrees.records,
      agrees.report, agrees.object, front, _, back, fewer, all,
      SourceLine.warnings_of_unlabelled unlabelled idle other⟩
  · intro operand c separator extra longer extended
    have present : nthField text 2 ≠ "" := by
      rwa [taken, (SourceLine.read_fields ..).2.2] at operand
    exact ⟨isOk_ofSource_remark split separator present extended,
      fun layout more laid again => eq_of_remark split separator present extended laid again⟩

def annotated : Source :=
  .lines [.text "P START 10", .text "\tNOTE: A\x0bhas room", .text "A RESW 2", .text " ADD A\r\n"]

theorem ignores_remarks_of_annotated :
    ∃ layout less more, ofSource oneInstruction unnamedSource annotated = .ok layout ∧
      ofSource oneInstruction unnamedSource
        (.lines [.text "P START 10", .text "A RESW 2", .text " ADD A\r\n"]) = .ok less ∧
      ofSource oneInstruction unnamedSource
        (.lines [.text "P START 10", .text "\tNOTE: A\x0bhas room", .text "A RESW 2\tfor 2 words",
          .text " ADD A\r\n"]) = .ok more ∧
      less.report = layout.report ∧ less.object oneInstruction = layout.object oneInstruction ∧
      layout.diagnostics.length = less.diagnostics.length + 1 ∧ more = layout := by
  obtain ⟨removed, _⟩ := ignores_remarks oneInstruction unnamedSource
    (show annotated.inputs = [.text "P START 10"] ++ .text "\tNOTE: A\x0bhas room" ::
      [.text "A RESW 2", .text " ADD A\r\n"] from rfl) rfl
  obtain ⟨_, extended⟩ := ignores_remarks oneInstruction unnamedSource
    (show annotated.inputs = [.text "P START 10", .text "\tNOTE: A\x0bhas room"] ++
      .text "A RESW 2" :: [.text " ADD A\r\n"] from rfl) rfl
  obtain ⟨short, without⟩ := removed (by decide +kernel) (by decide +kernel)
    (.lines [.text "P START 10", .text "A RESW 2", .text " ADD A\r\n"]) rfl
  obtain ⟨long, with_more⟩ := extended (by decide +kernel) '\t' (by decide) "for 2 words"
    (.lines [.text "P START 10", .text "\tNOTE: A\x0bhas room", .text "A RESW 2\tfor 2 words",
      .text " ADD A\r\n"]) rfl
  obtain ⟨layout, laid⟩ := exists_ok
    (x := ofSource oneInstruction unnamedSource annotated) (by decide +kernel)
  have accepted : (ofSource oneInstruction unnamedSource annotated).isOk = true := by
    rw [laid]
    rfl
  obtain ⟨less, short⟩ := exists_ok (short.mpr accepted)
  obtain ⟨more, long⟩ := exists_ok (long.mpr accepted)
  obtain ⟨_, _, _, _, _, report, object, front, own, back, fewer, all, warned⟩ :=
    without layout less laid short
  refine ⟨layout, less, more, laid, short, long, report, object _, ?_,
    with_more layout more laid long⟩
  rw [if_neg (by decide +kernel)] at warned
  rw [all, fewer, warned]
  simp only [List.length_append, List.length_cons, List.length_nil, List.length_map]
  omega

end Layout

end SicAssembler
