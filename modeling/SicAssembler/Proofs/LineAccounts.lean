import SicAssembler.Proofs.Concatenation

/-!
The diagnostics account for every line. What a line is warned about can be said of the line alone and
of the lines before it, case by case (`SourceLine.Notes`), and the diagnostics of a layout are these
warnings in the order of the lines. Two laws of counting follow: a line has a record, is a `START`, is
warned about as unknown, is empty or is an `END`, and each definition of a label is its first or is
warned about (`Layout.diagnostics_account_for_lines`).
-/

namespace SicAssembler

variable {table : OpcodeTable} {before lines : List SourceLine} {line : SourceLine}
  {notes : List Diagnostic}

/-! ### The warnings of a line, case by case -/

/-- An operand that is a literal: a letter and two quotes with characters in between. -/
def IsLiteral (operand : String) : Prop :=
  ∃ inner, operand.toList = 'C' :: '\'' :: (inner ++ ['\'']) ∨
    operand.toList = 'X' :: '\'' :: (inner ++ ['\''])

theorem isSome_literalBytes?_iff {operand : String} :
    (literalBytes? operand).isSome = true ↔ IsLiteral operand := by
  simp only [IsLiteral, ← quoted?_eq_some_iff, literalBytes?]
  cases quoted? 'C' operand <;> cases quoted? 'X' operand <;> simp

instance : DecidablePred IsLiteral := fun _ => decidable_of_iff _ isSome_literalBytes?_iff

namespace SourceLine

inductive LabelNotes (table : OpcodeTable) (before : List SourceLine) (line : SourceLine) :
    List Diagnostic → Prop where
  | invalid (present : line.label ≠ "") (malformed : isLabel line.label = false) :
    LabelNotes table before line [line.warning .invalidLabel
      ("invalid label '" ++ line.label ++ "' not entered in symbol table")]
  | redefined {front rest : List SourceLine} {earlier : SourceLine}
      (valid : isLabel line.label = true) (split : before = front ++ earlier :: rest)
      (other : earlier.mnemonic ≠ "START") (same : earlier.label = line.label)
      (latest : ∀ later ∈ rest, later.mnemonic ≠ "START" → later.label ≠ line.label) :
    LabelNotes table before line [line.warning .redefinedLabel
      ("label '" ++ line.label ++ "' redefined: " ++ addressText (counterAfter table front)
        ++ " -> " ++ addressText (counterAfter table before))]
  | absent (empty : line.label = "") : LabelNotes table before line []
  | fresh (valid : isLabel line.label = true)
      (first : ∀ earlier ∈ before, earlier.mnemonic ≠ "START" → earlier.label ≠ line.label) :
    LabelNotes table before line []

inductive FieldNotes (table : OpcodeTable) (line : SourceLine) : List Diagnostic → Prop where
  | malformedByte (filled : line.mnemonic = "BYTE") (unquoted : ¬IsLiteral line.operand) :
    FieldNotes table line [line.warning .malformedByte
      ("BYTE operand '" ++ line.operand ++ "' is neither C'...' nor X'...', no bytes reserved")]
  | unknown (present : line.mnemonic ≠ "") (notEnd : line.mnemonic ≠ "END")
      (undirected : line.mnemonic ∉ ["START", "RESW", "RESB", "BYTE", "WORD"])
      (absent : line.mnemonic ∉ table.keys) :
    FieldNotes table line [line.warning .unknownMnemonic
      ("unknown opcode '" ++ line.mnemonic ++ "', line ignored")]
  | literal (filled : line.mnemonic = "BYTE") (quoted : IsLiteral line.operand) :
    FieldNotes table line []
  | known (other : line.mnemonic ≠ "BYTE")
      (expected : line.mnemonic = "" ∨ line.mnemonic = "END" ∨
        line.mnemonic ∈ ["START", "RESW", "RESB", "WORD"] ∨ line.mnemonic ∈ table.keys) :
    FieldNotes table line []

inductive Notes (table : OpcodeTable) (before : List SourceLine) (line : SourceLine) :
    List Diagnostic → Prop where
  | started (start : line.mnemonic = "START") (address : Text.isHex line.operand = true) :
    Notes table before line []
  | malformedStart (start : line.mnemonic = "START") (address : Text.isHex line.operand = false) :
    Notes table before line [line.warning .malformedStart
      ("START operand '" ++ line.operand ++ "' is not a hexadecimal address, directive ignored")]
  | other {own fields : List Diagnostic} (other : line.mnemonic ≠ "START")
      (label : LabelNotes table before line own) (rest : FieldNotes table line fields) :
    Notes table before line (own ++ fields)

theorem addressOf?_eq_none_iff {label : String} (valid : isLabel label = true) :
    addressOf? table before label = none ↔
      ∀ earlier ∈ before, earlier.mnemonic ≠ "START" → earlier.label ≠ label := by
  rw [← Option.not_isSome_iff_eq_none, ← mem_labelsOf_iff, labelsOf, keys_ofList_bindingsOf]
  simp only [List.mem_eraseDups, List.mem_map, List.mem_filter, decide_eq_true_eq, not_exists,
    not_and]
  constructor
  · intro absent earlier member other same
    exact absent earlier ⟨member, other, same ▸ valid⟩ same
  · rintro absent earlier ⟨member, other, _⟩
    exact absent earlier member other

theorem labelNotes_iff (other : line.mnemonic ≠ "START") :
    LabelNotes table before line notes ↔
      notes = line.labelWarnings ((addressOf? table before line.label).map Nat.cast)
        (counterAfter table before) := by
  constructor
  · intro noted
    cases noted with
    | invalid present malformed => simp [labelWarnings, other, present, malformed]
    | @redefined front rest earlier valid split plain same latest =>
      have found : addressOf? table before line.label = some (counterAfter table front) :=
        addressOf?_eq_some_iff.mpr ⟨front, earlier, rest, split, ⟨plain, same ▸ valid⟩, same,
          fun later member defines => latest later member defines.1, rfl⟩
      have present : line.label ≠ "" := fun empty => by simp [empty, not_isLabel_empty] at valid
      rw [found]
      simp [labelWarnings, other, present, valid, redefinition]
    | absent empty => simp [labelWarnings, empty]
    | fresh valid first => simp [labelWarnings, valid, (addressOf?_eq_none_iff valid).mpr first]
  · rintro rfl
    unfold labelWarnings
    by_cases empty : line.label = ""
    · rw [if_pos (.inr empty)]
      exact .absent empty
    · rw [if_neg (by simp [other, empty])]
      by_cases valid : isLabel line.label = true
      · rw [if_pos valid]
        cases found : addressOf? table before line.label with
        | none => exact .fresh valid ((addressOf?_eq_none_iff valid).mp found)
        | some address =>
          obtain ⟨front, earlier, rest, split, defines, same, latest, rfl⟩ :=
            addressOf?_eq_some_iff.mp found
          have last : ∀ later ∈ rest, later.mnemonic ≠ "START" → later.label ≠ line.label :=
            fun later member other named => latest later member ⟨other, named ▸ valid⟩ named
          exact .redefined valid split defines.1 same last
      · rw [if_neg valid]
        exact .invalid empty (Bool.eq_false_iff.mpr valid)

theorem fieldNotes_iff (other : line.mnemonic ≠ "START") :
    FieldNotes table line notes ↔ notes = line.fieldWarnings table := by
  unfold fieldWarnings
  rw [if_neg other]
  simp only [isSome_literalBytes?_iff]
  constructor
  · intro noted
    cases noted with
    | malformedByte filled unquoted => rw [if_pos filled, if_neg unquoted]
    | unknown present notEnd undirected absent =>
      simp only [List.mem_cons, List.not_mem_nil, not_or] at undirected
      simp [present, notEnd, undirected, absent, Occupies]
    | literal filled quoted => rw [if_pos filled, if_pos quoted]
    | known plain expected =>
      rw [if_neg plain, if_pos]
      by_cases empty : line.mnemonic = ""
      · exact .inl empty
      · rcases expected with same | ended | directive | listed
        · exact (empty same).elim
        · exact .inr (.inl ended)
        · refine .inr (.inr (.inl ?_))
          simp only [List.mem_cons, other, false_or] at directive ⊢
          tauto
        · exact .inr (.inr (.inr ⟨empty, other, listed⟩))
  · rintro rfl
    split_ifs with filled quoted expected
    · exact .literal filled quoted
    · exact .malformedByte filled quoted
    · refine .known filled (expected.imp_right (Or.imp_right ?_))
      rintro (directive | ⟨_, _, listed⟩)
      · simp only [List.mem_cons, filled, false_or] at directive ⊢
        tauto
      · exact .inr listed
    · simp only [Occupies, not_or, List.mem_cons, List.not_mem_nil] at expected
      obtain ⟨present, notEnd, undirected, absent⟩ := expected
      refine .unknown present notEnd (by simp [other, undirected]) fun listed => ?_
      exact absent ⟨present, other, listed⟩

/-- The cases leave no choice: they describe the warnings that the first pass gives. -/
theorem notes_iff : Notes table before line notes ↔ notes = line.warnings table before := by
  unfold warnings
  constructor
  · intro noted
    cases noted with
    | started start address =>
      simp [labelWarnings, fieldWarnings, origin?, Text.hexValue?, start, address]
    | malformedStart start address =>
      simp [labelWarnings, fieldWarnings, origin?, Text.hexValue?, start, address]
    | other other label rest => rw [(labelNotes_iff other).mp label, (fieldNotes_iff other).mp rest]
  · rintro rfl
    by_cases start : line.mnemonic = "START"
    · have unlabelled : line.labelWarnings ((addressOf? table before line.label).map Nat.cast)
          (counterAfter table before) = [] := if_pos (.inl start)
      rw [unlabelled, List.nil_append, fieldWarnings, if_pos start, origin?, if_pos start,
        Text.hexValue?]
      cases address : Text.isHex line.operand with
      | true => exact .started start address
      | false => exact .malformedStart start address
    · exact .other start ((labelNotes_iff start).mpr rfl) ((fieldNotes_iff start).mpr rfl)

theorem notes_warnings (line : SourceLine) (table : OpcodeTable) (before : List SourceLine) :
    line.Notes table before (line.warnings table before) :=
  notes_iff.mpr rfl

/-! ### What a line counts for -/

theorem countKind_append (kind : DiagnosticKind) (front rest : List Diagnostic) :
    Diagnostic.countKind kind (front ++ rest) =
      Diagnostic.countKind kind front + Diagnostic.countKind kind rest :=
  List.countP_append

theorem LabelNotes.countKind_unknown (noted : LabelNotes table before line notes) :
    Diagnostic.countKind .unknownMnemonic notes = 0 := by
  cases noted <;> rfl

theorem FieldNotes.countKind_redefined (noted : FieldNotes table line notes) :
    Diagnostic.countKind .redefinedLabel notes = 0 := by
  cases noted <;> rfl

theorem FieldNotes.account (noted : FieldNotes table line notes) (other : line.mnemonic ≠ "START") :
    (if line.Occupies table then 1 else 0) + Diagnostic.countKind .unknownMnemonic notes
      + (if line.mnemonic = "" then 1 else 0)
      + (if "END" ∈ table.keys then 0 else if line.mnemonic = "END" then 1 else 0) = 1 := by
  cases noted with
  | malformedByte filled _ => simp [Occupies, filled, Diagnostic.countKind, warning]
  | unknown present notEnd undirected absent =>
    simp only [List.mem_cons, List.not_mem_nil, not_or] at undirected
    simp [Occupies, undirected, present, notEnd, absent, Diagnostic.countKind, warning]
  | literal filled _ => simp [Occupies, filled, Diagnostic.countKind]
  | known plain expected =>
    by_cases empty : line.mnemonic = ""
    · simp [Occupies, empty, Diagnostic.countKind]
    · by_cases ended : line.mnemonic = "END"
      · by_cases listed : "END" ∈ table.keys
        · simp [Occupies, ended, listed, Diagnostic.countKind]
        · simp [Occupies, ended, listed, Diagnostic.countKind]
      · have occupies : line.Occupies table := by
          rcases expected with same | same | directive | listed
          · exact (empty same).elim
          · exact (ended same).elim
          · refine .inl ?_
            simp only [List.mem_cons, other, false_or] at directive ⊢
            tauto
          · exact .inr ⟨empty, other, listed⟩
        simp [occupies, empty, ended, Diagnostic.countKind]

/-- A line has a record, is a `START`, is unknown, is empty or ends the program, and no two of
these. -/
theorem Notes.account (noted : Notes table before line notes) :
    (if line.Occupies table then 1 else 0) + (if line.mnemonic = "START" then 1 else 0)
      + Diagnostic.countKind .unknownMnemonic notes + (if line.mnemonic = "" then 1 else 0)
      + (if "END" ∈ table.keys then 0 else if line.mnemonic = "END" then 1 else 0) = 1 := by
  cases noted with
  | started start _ => simp [Occupies, start, Diagnostic.countKind]
  | malformedStart start _ => simp [Occupies, start, Diagnostic.countKind, warning]
  | other other label rest =>
    have account := rest.account other
    rw [if_neg other, countKind_append, label.countKind_unknown]
    omega

/-- A definition of a label is its first or is warned about, and not both. -/
theorem Notes.definition (noted : Notes table before line notes) :
    Diagnostic.countKind .redefinedLabel notes
      + (if line.Defines ∧ addressOf? table before line.label = none then 1 else 0) =
        if line.Defines then 1 else 0 := by
  cases noted with
  | started start _ => simp [Defines, start, Diagnostic.countKind]
  | malformedStart start _ => simp [Defines, start, Diagnostic.countKind, warning]
  | other other label rest =>
    rw [countKind_append, rest.countKind_redefined, Nat.add_zero]
    cases label with
    | invalid _ malformed => simp [Defines, malformed, Diagnostic.countKind, warning]
    | redefined valid split plain same _ =>
      have known : addressOf? table before line.label ≠ none := by
        rw [ne_eq, addressOf?_eq_none_iff valid, split]
        intro fresh
        exact fresh _ (by simp) plain same
      simp [Defines, other, valid, known, Diagnostic.countKind, warning]
    | absent empty => simp [Defines, empty, not_isLabel_empty, Diagnostic.countKind]
    | fresh valid first =>
      simp [Defines, other, valid, (addressOf?_eq_none_iff valid).mpr first, Diagnostic.countKind]

end SourceLine

/-! ### What all lines count for -/

theorem length_eq_accounts (table : OpcodeTable) (lines : List SourceLine) :
    lines.length = (recordsOf table lines).length + lines.countP (·.mnemonic = "START")
      + Diagnostic.countKind .unknownMnemonic (diagnosticsOf table lines)
      + lines.countP (·.mnemonic = "")
      + (if "END" ∈ table.keys then 0 else lines.countP (·.mnemonic = "END")) := by
  -- From the last line back: what a line is warned about depends on the lines before it.
  induction lines using List.reverseRecOn with
  | nil => simp [recordsOf, located, diagnosticsOf, Diagnostic.countKind]
  | append_singleton lines line ih =>
    have account := (line.notes_warnings table lines).account
    rw [recordsOf_concat, diagnosticsOf_concat, SourceLine.countKind_append]
    simp only [List.length_append, List.length_singleton, List.countP_append, List.countP_singleton,
      apply_ite List.length, List.length_nil, decide_eq_true_eq]
    split_ifs at account ih ⊢ <;> omega

theorem countKind_redefined_add_length (table : OpcodeTable) (lines : List SourceLine) :
    Diagnostic.countKind .redefinedLabel (diagnosticsOf table lines)
      + (labelsOf table lines).length = lines.countP fun line => line.Defines := by
  induction lines using List.reverseRecOn with
  | nil => rfl
  | append_singleton lines line ih =>
    have definition := (line.notes_warnings table lines).definition
    rw [diagnosticsOf_concat, SourceLine.countKind_append, labelsOf_concat]
    simp only [List.length_append, List.length_singleton, List.countP_append, List.countP_singleton,
      apply_ite List.length, List.length_nil, decide_eq_true_eq]
    omega

namespace Layout

variable {file : String} {source : Source} {layout : Layout}

/-- The diagnostics are what each line is warned about, line after line; so lines and definitions
can be counted by them. -/
theorem diagnostics_account_for_lines (laid : ofSource table file source = .ok layout) :
    ∃ (lines : List SourceLine) (notes : List (List Diagnostic)),
      source.read file = .ok lines ∧ layout.diagnostics = notes.flatten ∧
      notes.length = lines.length ∧
      (∀ (i : Nat) (line : SourceLine), lines[i]? = some line → ∀ own,
        notes[i]? = some own ↔ line.Notes table (lines.take i) own) ∧
      lines.length = (layout.records.filter fun record => !record.isEnd).length
        + lines.countP (·.mnemonic = "START")
        + Diagnostic.countKind .unknownMnemonic layout.diagnostics
        + lines.countP (·.mnemonic = "")
        + (if "END" ∈ table.keys then 0 else lines.countP (·.mnemonic = "END")) ∧
      Diagnostic.countKind .redefinedLabel layout.diagnostics + layout.symbols.size =
        lines.countP fun line => line.mnemonic ≠ "START" ∧ isLabel line.label = true := by
  obtain ⟨lines, read, reflects⟩ := reflects_of_ofSource laid
  have diagnostics := diagnostics_eq laid read
  refine ⟨lines, _, read, diagnostics, List.length_mapIdx, ?_, ?_, ?_⟩
  · intro i line found own
    rw [List.getElem?_mapIdx, found, SourceLine.notes_iff, Option.map_some, Option.some_inj, eq_comm]
  · rw [filter_records reflects, diagnostics]
    exact length_eq_accounts table lines
  · have size : layout.symbols.size = (labelsOf table lines).length := by
      rw [reflects.symbols, labelsOf, OrderedMap.keys, List.length_map]
      rfl
    rw [size, diagnostics]
    exact countKind_redefined_add_length table lines

def faultyProgram : Source :=
  .text "A WORD 1\nP START 10\n1X ADD A\nA BYTE Z\nA NOP\n START Q\n\n END"

theorem diagnostics_account_for_lines_of_faultyProgram :
    ∃ layout, ofSource oneInstruction unnamedSource faultyProgram = .ok layout ∧
      8 = (layout.records.filter fun record => !record.isEnd).length + 2
        + Diagnostic.countKind .unknownMnemonic layout.diagnostics + 1 + 1 ∧
      Diagnostic.countKind .redefinedLabel layout.diagnostics + layout.symbols.size = 3 ∧
      ∃ notes : List (List Diagnostic), layout.diagnostics = notes.flatten ∧
        notes[3]? = some
          [{ kind := .redefinedLabel
             message := "label 'A' redefined: 0000 -> 0013"
             location := some ⟨unnamedSource, 4, 8⟩ },
            { kind := .malformedByte
              message := "BYTE operand 'Z' is neither C'...' nor X'...', no bytes reserved"
              location := some ⟨unnamedSource, 4, 8⟩ }] := by
  refine (exists_ok (by decide +kernel)).imp fun layout laid => ⟨laid, ?_⟩
  obtain ⟨lines, notes, read, diagnostics, _, noted, accounts, definitions⟩ :=
    diagnostics_account_for_lines laid
  have counts := value_of_ok read (fun lines =>
    (lines.length, lines.countP (·.mnemonic = "START"), lines.countP (·.mnemonic = ""),
      lines.countP (·.mnemonic = "END"),
      lines.countP fun line => line.mnemonic ≠ "START" ∧ isLabel line.label = true))
    (b := (8, 2, 1, 1, 3)) (by decide +kernel)
  simp only [Prod.mk.injEq] at counts
  obtain ⟨length, starts, blanks, ends, labels⟩ := counts
  rw [length, starts, blanks, ends, if_neg (by decide +kernel)] at accounts
  have before := value_of_ok read (List.take 3)
    (b := [SourceLine.read unnamedSource 1 "A WORD 1",
      SourceLine.read unnamedSource 2 "P START 10", SourceLine.read unnamedSource 3 "1X ADD A"])
    (by decide +kernel)
  have fourth := value_of_ok read (fun lines => lines[3]?)
    (b := some (SourceLine.read unnamedSource 4 "A BYTE Z")) (by decide +kernel)
  refine ⟨accounts, definitions.trans labels, notes, diagnostics, (noted 3 _ fourth _).mpr ?_⟩
  rw [before, SourceLine.notes_iff]
  decide +kernel

end Layout

end SicAssembler
