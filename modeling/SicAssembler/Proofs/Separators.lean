import SicAssembler.Text.Lines

/-!
Texts joined by a separator. A text that was joined from pieces falls apart into the same pieces
again if none of them holds the separator (`pieces_intercalate`), and so does one in which each piece
ends with the separator, with an empty rest (`join_terminated`). Lines are the pieces between line
feeds, so lines that were written are found again (`lines_intercalate`, `lines_unlines`).
-/

namespace SicAssembler.Text

/-! ### Lists -/

theorem mem_intercalate_list {α : Type} {mark : List α} {pieces : List (List α)} {x : α}
    (member : x ∈ mark.intercalate pieces) : x ∈ mark ∨ ∃ piece ∈ pieces, x ∈ piece := by
  induction pieces with
  | nil =>
    rw [List.intercalate_nil] at member
    cases member
  | cons piece rest ih =>
    by_cases last : rest = []
    · subst last
      rw [List.intercalate_singleton] at member
      exact .inr ⟨piece, List.mem_cons_self, member⟩
    · rw [List.intercalate_cons_of_ne_nil last] at member
      rcases List.mem_append.mp member with front | back
      · rcases List.mem_append.mp front with own | between
        · exact .inr ⟨piece, List.mem_cons_self, own⟩
        · exact .inl between
      · rcases ih back with between | ⟨other, later, inside⟩
        · exact .inl between
        · exact .inr ⟨other, List.mem_cons_of_mem _ later, inside⟩

theorem mem_of_mem_splitOn {α : Type} [BEq α] [LawfulBEq α] {separator x : α} {xs piece : List α}
    (member : piece ∈ xs.splitOn separator) (inside : x ∈ piece) : x ∈ xs := by
  have joined : [separator].intercalate (xs.splitOn separator) = xs :=
    List.intercalate_splitOn separator
  rw [← joined]
  generalize xs.splitOn separator = pieces at member ⊢
  induction pieces with
  | nil => cases member
  | cons first rest ih =>
    by_cases last : rest = []
    · subst last
      rw [List.intercalate_singleton, ← List.mem_singleton.mp member]
      exact inside
    · rw [List.intercalate_cons_of_ne_nil last, List.mem_append]
      rcases List.mem_cons.mp member with rfl | later
      · exact .inl (List.mem_append_left _ inside)
      · exact .inr (ih later)

theorem not_mem_of_mem_splitOn {α : Type} [BEq α] [LawfulBEq α] {separator : α} {xs piece : List α}
    (member : piece ∈ xs.splitOn separator) : separator ∉ piece := by
  induction xs generalizing piece with
  | nil =>
    rw [List.splitOn_nil, List.mem_singleton] at member
    simp [member]
  | cons x rest ih =>
    rw [List.splitOn_cons_eq_if_modifyHead] at member
    split at member
    · rcases List.mem_cons.mp member with rfl | later
      · simp
      · exact ih later
    · rename_i other
      -- The first piece of the rest has one element more in front, and not the separator.
      cases split : rest.splitOn separator with
      | nil => exact (List.splitOn_ne_nil _ _ split).elim
      | cons first others =>
        rw [split, List.modifyHead_cons] at member
        rcases List.mem_cons.mp member with rfl | later
        · intro found
          rcases List.mem_cons.mp found with rfl | inside
          · exact other (beq_self_eq_true _)
          · exact ih (split ▸ List.mem_cons_self) inside
        · exact ih (split ▸ List.mem_cons_of_mem _ later)

/-! ### Texts -/

def pieces (separator : Char) (text : String) : List String :=
  (text.toList.splitOn separator).map String.ofList

theorem pieces_intercalate {separator : Char} {mark : String} (single : mark.toList = [separator])
    {texts : List String} (absent : ∀ text ∈ texts, separator ∉ text.toList) (some : texts ≠ []) :
    pieces separator (mark.intercalate texts) = texts := by
  have absent_chars : ∀ chars ∈ texts.map String.toList, separator ∉ chars := by
    intro chars member
    obtain ⟨text, present, rfl⟩ := List.mem_map.mp member
    exact absent text present
  rw [pieces, String.toList_intercalate, single,
    List.splitOn_intercalate separator absent_chars (by simpa using some), List.map_map]
  simp [Function.comp_def]

theorem mem_intercalate {mark : String} {texts : List String} {c : Char}
    (member : c ∈ (mark.intercalate texts).toList) :
    c ∈ mark.toList ∨ ∃ text ∈ texts, c ∈ text.toList := by
  rw [String.toList_intercalate] at member
  rcases mem_intercalate_list member with between | ⟨chars, joined, inside⟩
  · exact .inl between
  · obtain ⟨text, present, rfl⟩ := List.mem_map.mp joined
    exact .inr ⟨text, present, inside⟩

theorem lines_intercalate {texts : List String} (absent : ∀ text ∈ texts, '\n' ∉ text.toList)
    (some : texts ≠ []) : lines ("\n".intercalate texts) = texts :=
  pieces_intercalate rfl absent some

theorem unlines_cons (text : String) (rest : List String) :
    unlines (text :: rest) = text ++ "\n" ++ unlines rest := by
  simp [unlines]

theorem unlines_append (front rest : List String) :
    unlines (front ++ rest) = unlines front ++ unlines rest := by
  rw [unlines, List.map_append, String.join_append, unlines, unlines]

/-- What ends every text with a mark separates the texts and an empty rest. -/
theorem join_terminated (mark : String) (texts : List String) :
    String.join (texts.map (· ++ mark)) = mark.intercalate (texts ++ [""]) := by
  induction texts with
  | nil => rw [List.map_nil, List.nil_append, String.intercalate_singleton, String.join_nil]
  | cons text rest ih =>
    rw [List.map_cons, String.join_cons, ih, List.cons_append,
      String.intercalate_cons_of_ne_nil (by simp)]

theorem intercalate_concat_empty (mark : String) {texts : List String} (some : texts ≠ []) :
    mark.intercalate (texts ++ [""]) = mark.intercalate texts ++ mark := by
  induction texts with
  | nil => exact (some rfl).elim
  | cons text rest ih =>
    rw [List.cons_append, String.intercalate_cons_of_ne_nil (by simp)]
    by_cases last : rest = []
    · rw [last, List.nil_append, String.intercalate_singleton, String.intercalate_singleton,
        String.append_empty]
    · rw [ih last, String.intercalate_cons_of_ne_nil last, ← String.append_assoc]

/-- The lines that were written, and the empty rest after the last line end. -/
theorem lines_unlines {texts : List String} (absent : ∀ text ∈ texts, '\n' ∉ text.toList) :
    lines (unlines texts) = texts ++ [""] := by
  rw [unlines, join_terminated]
  apply lines_intercalate _ (by simp)
  intro text member
  rcases List.mem_append.mp member with line | rest
  · exact absent text line
  · rw [List.mem_singleton.mp rest]
    simp

theorem not_mem_of_mem_lines {text line : String} (member : line ∈ lines text) :
    '\n' ∉ line.toList := by
  obtain ⟨chars, found, rfl⟩ := List.mem_map.mp member
  rw [String.toList_ofList]
  exact not_mem_of_mem_splitOn found

end SicAssembler.Text
