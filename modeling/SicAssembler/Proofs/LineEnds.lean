import Mathlib.Data.List.Infix
import SicAssembler.Proofs.Actions
import SicAssembler.Proofs.Fields

/-!
Line ends do not matter. A line may be followed by any carriage returns and line feeds and is read as
the same line (`Text.Ended`), so a program whose line feeds are all made into carriage returns with
line feeds has the same layout, or fails in the same way, as does the list of its lines with any ends
to them; and opcode tables are read alike from both. A file is read with its line ends made one, which
differs from its text in nothing else if its carriage returns stand before line feeds only
(`line_ends_do_not_matter`).
-/

namespace SicAssembler

/-! ### Lines with different ends -/

namespace Text

/-- A text with a carriage return before each line feed. -/
def withReturns (text : String) : String :=
  String.ofList (text.toList.flatMap fun c => if c = '\n' then ['\r', '\n'] else [c])

def ReturnsPaired (chars : List Char) : Prop :=
  ∀ front rest, chars = front ++ '\r' :: rest → rest.head? = some '\n'

theorem returnsPaired_iff {chars : List Char} :
    ReturnsPaired chars ↔
      ∀ after ∈ chars.tails, after.head? = some '\r' → after.tail.head? = some '\n' := by
  simp only [List.mem_tails]
  constructor
  · rintro paired after ⟨front, split⟩ first
    obtain ⟨rest, rfl⟩ := List.head?_eq_some_iff.mp first
    exact paired front rest split.symm
  · intro paired front rest split
    exact paired ('\r' :: rest) ⟨front, split.symm⟩ rfl

instance : DecidablePred ReturnsPaired := fun _ => decidable_of_iff _ returnsPaired_iff.symm

def Ended (text line : List Char) : Prop :=
  ∃ ends, (∀ c ∈ ends, isLineEnd c = true) ∧ text = line ++ ends

def EndedLines (texts lines : List String) : Prop :=
  List.Forall₂ (fun text line => Ended text.toList line.toList) texts lines

theorem Ended.refl (line : List Char) : Ended line line :=
  ⟨[], by simp, (List.append_nil _).symm⟩

theorem ended_return : Ended ['\r'] [] :=
  ⟨['\r'], by simp [isLineEnd], rfl⟩

theorem trimLineEnd_of_ended {text line : String} (ended : Ended text.toList line.toList) :
    trimLineEnd text = trimLineEnd line := by
  obtain ⟨ends, all, split⟩ := ended
  have dropped : ∀ c ∈ ends.reverse, isLineEnd c = true :=
    fun c member => all c (List.mem_reverse.mp member)
  rw [trimLineEnd, trimLineEnd, split, List.reverse_append, List.dropWhile_append_of_pos dropped]

theorem endedLines_of_splitOn {chars cooked : List Char}
    (ended : List.Forall₂ Ended (chars.splitOn '\n') (cooked.splitOn '\n')) :
    EndedLines (lines (String.ofList chars)) (lines (String.ofList cooked)) := by
  rw [EndedLines, lines, lines, List.forall₂_map_left_iff, List.forall₂_map_right_iff]
  simpa only [String.toList_ofList] using ended

theorem forall₂_modifyHead_cons (c : Char) {texts lines : List (List Char)}
    (ended : List.Forall₂ Ended texts lines) :
    List.Forall₂ Ended (texts.modifyHead (c :: ·)) (lines.modifyHead (c :: ·)) := by
  cases ended with
  | nil => exact .nil
  | cons first rest =>
    obtain ⟨ends, all, rfl⟩ := first
    exact .cons ⟨ends, all, rfl⟩ rest

theorem splitOn_newline_cons (rest : List Char) :
    ('\n' :: rest).splitOn '\n' = [] :: rest.splitOn '\n' := by
  rw [List.splitOn_cons_eq_if_modifyHead, if_pos (beq_self_eq_true _)]

theorem splitOn_cons_of_ne {c : Char} (other : c ≠ '\n') (rest : List Char) :
    (c :: rest).splitOn '\n' = (rest.splitOn '\n').modifyHead (c :: ·) := by
  rw [List.splitOn_cons_eq_if_modifyHead, if_neg (by simpa using other)]

theorem endedLines_withReturns (text : String) :
    EndedLines (lines (withReturns text)) (lines text) := by
  rw [← String.ofList_toList (s := text), withReturns, String.toList_ofList]
  apply endedLines_of_splitOn
  induction text.toList with
  | nil => exact .cons (.refl _) .nil
  | cons c rest ih =>
    rw [List.flatMap_cons]
    by_cases newline : c = '\n'
    · rw [if_pos newline, newline, List.cons_append, List.cons_append, List.nil_append,
        splitOn_cons_of_ne (by decide), splitOn_newline_cons, splitOn_newline_cons]
      exact .cons ended_return ih
    · rw [if_neg newline, List.singleton_append, splitOn_cons_of_ne newline,
        splitOn_cons_of_ne newline]
      exact forall₂_modifyHead_cons c ih

/-! ### Line ends made one -/

theorem ReturnsPaired.tail {c : Char} {rest : List Char} (paired : ReturnsPaired (c :: rest)) :
    ReturnsPaired rest :=
  fun front after split => paired (c :: front) after (by rw [split, List.cons_append])

theorem fst_foldr_unifyStep (chars : List Char) :
    (chars.foldr unifyStep (false, [])).1 = decide (chars.head? = some '\n') := by
  cases chars with
  | nil => rfl
  | cons c rest =>
    rw [List.foldr_cons, unifyStep]
    by_cases newline : c = '\n'
    · simp [newline]
    · by_cases back : c = '\r'
      · simp [back]
      · simp [newline, back]

section Unified

variable {rest : List Char}

theorem snd_foldr_unifyStep_newline :
    (('\n' :: rest).foldr unifyStep (false, [])).2 =
      '\n' :: (rest.foldr unifyStep (false, [])).2 := rfl

theorem snd_foldr_unifyStep_return (follows : rest.head? = some '\n') :
    (('\r' :: rest).foldr unifyStep (false, [])).2 = (rest.foldr unifyStep (false, [])).2 := by
  rw [List.foldr_cons, unifyStep, fst_foldr_unifyStep]
  simp [follows]

theorem snd_foldr_unifyStep_of_ne {c : Char} (newline : c ≠ '\n') (back : c ≠ '\r') :
    ((c :: rest).foldr unifyStep (false, [])).2 = c :: (rest.foldr unifyStep (false, [])).2 := by
  rw [List.foldr_cons, unifyStep]
  simp [newline, back]

end Unified

theorem endedLines_unifyNewlines {text : String} (paired : ReturnsPaired text.toList) :
    EndedLines (lines text) (lines (unifyNewlines text)) := by
  rw [← String.ofList_toList (s := text), unifyNewlines, String.toList_ofList]
  apply endedLines_of_splitOn
  generalize text.toList = chars at paired ⊢
  induction chars with
  | nil => exact .cons (.refl _) .nil
  | cons c rest ih =>
    have ended := ih paired.tail
    by_cases newline : c = '\n'
    · rw [newline, snd_foldr_unifyStep_newline, splitOn_newline_cons, splitOn_newline_cons]
      exact .cons (.refl _) ended
    · rw [splitOn_cons_of_ne newline]
      by_cases back : c = '\r'
      · -- The line feed after it is still there, and the line before it has lost its return.
        subst back
        have follows := paired [] rest rfl
        obtain ⟨more, rfl⟩ := List.head?_eq_some_iff.mp follows
        rw [snd_foldr_unifyStep_return follows]
        rw [snd_foldr_unifyStep_newline, splitOn_newline_cons, splitOn_newline_cons] at ended ⊢
        exact .cons ended_return (List.forall₂_cons.mp ended).2
      · rw [snd_foldr_unifyStep_of_ne newline back, splitOn_cons_of_ne newline]
        exact forall₂_modifyHead_cons c ended

end Text

/-! ### Opcode tables -/

theorem fields_of_ended {text line : String} (ended : Text.Ended text.toList line.toList)
    (present : line ≠ "") : fields text = fields line := by
  obtain ⟨ends, all, split⟩ := ended
  have blanks : ∀ c ∈ ends, Text.isBlank c = true :=
    fun c member => isBlank_of_isLineEnd (all c member)
  have parted : Parted line.toList ends := .inr fun c first => blanks c (List.mem_of_mem_head? first)
  obtain ⟨first, others, chars⟩ := List.exists_cons_of_ne_nil
    (fun empty => present (String.toList_eq_nil_iff.mp empty))
  rw [fields, fields, split, fieldsFrom_append parted, fieldsFrom_blanks blanks, List.append_nil,
    chars]
  rfl

namespace OpcodeTable

theorem definition?_of_ended {text line : String} (ended : Text.Ended text.toList line.toList) :
    definition? text = definition? line := by
  by_cases present : line = ""
  · -- Line ends alone are an omitted label or nothing, and neither is a definition.
    obtain ⟨ends, all, split⟩ := ended
    rw [present, String.toList_empty, List.nil_append] at split
    have blanks : ∀ c ∈ ends, Text.isBlank c = true :=
      fun c member => isBlank_of_isLineEnd (all c member)
    rw [present, definition?, definition?, fields, split, fieldsFrom_blanks blanks]
    cases ends with
    | nil => simp [omittedLabel, fields, fieldsFrom]
    | cons c rest => simp [omittedLabel, blanks c List.mem_cons_self, fields, fieldsFrom]
  · rw [definition?, fields_of_ended ended present, definition?]

theorem definitions_of_ended {text other : String}
    (ended : Text.EndedLines (Text.lines text) (Text.lines other)) :
    definitions text = definitions other := by
  unfold definitions
  generalize Text.lines text = texts, Text.lines other = lines at ended ⊢
  induction ended with
  | nil => rfl
  | cons first _ ih => rw [List.filterMap_cons, List.filterMap_cons, definition?_of_ended first, ih]

end OpcodeTable

/-! ### Programs -/

def Source.Alike (source other : Source) : Prop :=
  List.Forall₂ (fun input another => ∀ file number, input.read file number = another.read file number)
    source.inputs other.inputs

namespace Source.Alike

variable {source other : Source} (alike : source.Alike other)

theorem of_ended {texts lines : List String} (source_inputs : source.inputs = texts.map .text)
    (other_inputs : other.inputs = lines.map .text) (ended : Text.EndedLines texts lines) :
    source.Alike other := by
  rw [Alike, source_inputs, other_inputs, List.forall₂_map_left_iff, List.forall₂_map_right_iff]
  refine ended.imp fun text line same file number => ?_
  simp only [LineInput.read, SourceLine.read, Text.trimLineEnd_of_ended same]

include alike

theorem statements (table : OpcodeTable) (file : String) :
    source.numbered.map (Statement.read table file) =
      other.numbered.map (Statement.read table file) := by
  unfold Alike at alike
  unfold Source.numbered
  generalize source.inputs = inputs, other.inputs = others, 1 = start at alike ⊢
  induction alike generalizing start with
  | nil => rfl
  | cons first _ ih =>
    simp only [List.zipIdx_cons, List.map_cons, Statement.read, first, ih]

theorem ofSource (table : OpcodeTable) (file : String) :
    Layout.ofSource table file source = Layout.ofSource table file other := by
  have read : ∀ program : Source, Statement.readAll table file program =
      (program.numbered.map (Statement.read table file)).mapM id := by
    intro program
    rw [List.mapM_map]
    rfl
  rw [Layout.ofSource, Layout.ofSource, read, read, alike.statements]

theorem events (table : OpcodeTable) (file : String) :
    Layout.events table file source = Layout.events table file other := by
  rw [Layout.events, Layout.events, Statement.beforeFailure, Statement.beforeFailure,
    alike.statements, alike.ofSource]

theorem assemble (table : OpcodeTable) (file : String) :
    SicAssembler.assemble table file source = SicAssembler.assemble table file other := by
  rw [SicAssembler.assemble, SicAssembler.assemble, alike.ofSource]

theorem session_assemble (file : String) :
    Session.assemble file source = Session.assemble file other := by
  unfold Session.assemble Session.layOut
  simp only [alike.events, alike.ofSource]

end Source.Alike

theorem Session.assembleFile_of_loadText {session : Session} {path : RawText} {raw : String}
    (loaded : session.disk.loadText (Path.normalize path) = .ok raw) :
    assembleFile path session =
      assemble (Path.normalize path).shown (.text (Text.unifyNewlines raw)) session := by
  have found : session.outcome (readProgram path) =
      .ok ((Path.normalize path).shown, .text (Text.unifyNewlines raw)) := by
    rw [outcome_readProgram, Disk.readText, loaded]
    rfl
  have left := session.after_readProgram path
  have read : readProgram path session =
      .ok ((Path.normalize path).shown, .text (Text.unifyNewlines raw)) session := by
    unfold outcome at found
    unfold after at left
    cases ran : readProgram path session with
    | ok value later =>
      rw [ran] at found left
      dsimp only at found left
      rw [Except.ok.inj found, left]
    | error failure later =>
      rw [ran] at found
      cases found
  simp only [assembleFile, bind, EStateM.bind, read]

/-- How lines end changes nothing: neither the opcode table of a text nor what becomes of a program,
its failures included. -/
theorem line_ends_do_not_matter (file program definitions : String) :
    OpcodeTable.parse (Text.withReturns definitions) = OpcodeTable.parse definitions ∧
    (∀ table,
      Layout.ofSource table file (.text (Text.withReturns program)) =
        Layout.ofSource table file (.text program) ∧
      assemble table file (.text (Text.withReturns program)) = assemble table file (.text program)) ∧
    (∀ texts, Text.EndedLines texts (Text.lines program) → ∀ table,
      Layout.ofSource table file (.lines (texts.map .text)) =
        Layout.ofSource table file (.text program) ∧
      assemble table file (.lines (texts.map .text)) = assemble table file (.text program)) ∧
    ∀ (session : Session) (path : RawText) (raw : String),
      session.disk.loadText (Path.normalize path) = .ok raw → Text.ReturnsPaired raw.toList →
      Session.assembleFile path session =
        Session.assemble (Path.normalize path).shown (.text raw) session := by
  refine ⟨?_, fun table => ?_, fun texts ended table => ?_, fun session path raw loaded paired => ?_⟩
  · rw [OpcodeTable.parse, OpcodeTable.parse,
      OpcodeTable.definitions_of_ended (Text.endedLines_withReturns definitions)]
  · have alike : (Source.text (Text.withReturns program)).Alike (.text program) :=
      .of_ended rfl rfl (Text.endedLines_withReturns program)
    exact ⟨alike.ofSource table file, alike.assemble table file⟩
  · have alike : (Source.lines (texts.map .text)).Alike (.text program) := .of_ended rfl rfl ended
    exact ⟨alike.ofSource table file, alike.assemble table file⟩
  · have alike : (Source.text raw).Alike (.text (Text.unifyNewlines raw)) :=
      .of_ended rfl rfl (Text.endedLines_unifyNewlines paired)
    rw [Session.assembleFile_of_loadText loaded, alike.session_assemble]

def mixedEnds : Session :=
  { table := .standard
    disk := Disk.addFile {} "p.asm" "P START 10\r\nA ADD A\n".toUTF8 }

theorem line_ends_do_not_matter_of_mixedEnds :
    OpcodeTable.parse "ADD 18\r\n\r\nSUB 1C" = OpcodeTable.parse "ADD 18\n\nSUB 1C" ∧
      Layout.ofSource .standard unnamedSource
          (.lines [.text "P START 10\n\r", .text "\r\n", .text "1X RESB\r"]) =
        Layout.ofSource .standard unnamedSource (.text "P START 10\n\n1X RESB") ∧
      Session.assembleFile "./p.asm" mixedEnds =
        Session.assemble "p.asm" (.text "P START 10\r\nA ADD A\n") mixedEnds := by
  obtain ⟨parsed, _, listed, filed⟩ :=
    line_ends_do_not_matter unnamedSource "P START 10\n\n1X RESB" "ADD 18\n\nSUB 1C"
  have returns : Text.withReturns "ADD 18\n\nSUB 1C" = "ADD 18\r\n\r\nSUB 1C" := by decide +kernel
  have lines : Text.lines "P START 10\n\n1X RESB" = ["P START 10", "", "1X RESB"] := by decide +kernel
  have ended : Text.EndedLines ["P START 10\n\r", "\r\n", "1X RESB\r"]
      (Text.lines "P START 10\n\n1X RESB") := by
    rw [lines]
    refine .cons ⟨['\n', '\r'], ?_, rfl⟩ (.cons ⟨['\r', '\n'], ?_, rfl⟩
      (.cons ⟨['\r'], ?_, rfl⟩ .nil)) <;> simp [Text.isLineEnd]
  have path : (Path.normalize "./p.asm").shown = "p.asm" := by decide +kernel
  have read := filed mixedEnds "./p.asm" "P START 10\r\nA ADD A\n" (by decide +kernel)
    (by decide +kernel)
  rw [returns] at parsed
  rw [path] at read
  exact ⟨parsed, (listed _ ended .standard).1, read⟩

end SicAssembler
