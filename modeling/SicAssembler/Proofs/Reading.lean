import Mathlib.Data.List.Forall2
import SicAssembler.Layout

/-!
What a successful reading says. A source that could be read is a list of lines of text, numbered
from one; a source that could be interpreted is the same list, each line with the operation and
the size that `Statement.ofLine` gives it. Later proofs start from `readAll_ok` and
`Layout.ofSource_ok` and do not look at the reader again.
-/

namespace SicAssembler

/-! ### Work that may fail -/

theorem bind_ok {ε α β : Type} {x : Except ε α} {f : α → Except ε β} {b : β}
    (h : x >>= f = .ok b) : ∃ a, x = .ok a ∧ f a = .ok b := by
  cases x with
  | error failure => cases h
  | ok a => exact ⟨a, rfl, h⟩

theorem pure_ok {ε α : Type} {a b : α} (h : (pure a : Except ε α) = .ok b) : b = a :=
  (Except.ok.inj h).symm

theorem exists_ok {ε α : Type} {x : Except ε α} (h : x.isOk = true) : ∃ a, x = .ok a := by
  cases x with
  | error failure => cases h
  | ok a => exact ⟨a, rfl⟩

theorem value_of_ok {ε α β : Type} {x : Except ε α} {a : α} (h : x = .ok a) (f : α → β) {b : β}
    (mapped : x.map f = .ok b) : f a = b := by
  subst h
  exact Except.ok.inj mapped

theorem exists_of_map_ok {ε α β : Type} {x : Except ε α} {f : α → β} {b : β}
    (mapped : x.map f = .ok b) : ∃ a, x = .ok a ∧ f a = b := by
  cases x with
  | error failure => cases mapped
  | ok a => exact ⟨a, rfl, Except.ok.inj mapped⟩

theorem mapM_ok_iff {ε α β : Type} {f : α → Except ε β} {xs : List α} {ys : List β} :
    xs.mapM f = .ok ys ↔ List.Forall₂ (fun x y => f x = .ok y) xs ys := by
  induction xs generalizing ys with
  | nil =>
    rw [List.mapM_nil, List.forall₂_nil_left_iff]
    exact ⟨pure_ok, fun h => h ▸ rfl⟩
  | cons x rest ih =>
    rw [List.mapM_cons]
    constructor
    · intro h
      obtain ⟨y, first, h⟩ := bind_ok h
      obtain ⟨others, remaining, h⟩ := bind_ok h
      obtain rfl := pure_ok h
      exact .cons first (ih.mp remaining)
    · intro h
      cases h with
      | cons first remaining =>
        rw [first, ih.mpr remaining]
        rfl

theorem mapM_ok_mem {ε α β : Type} {f : α → Except ε β} {xs : List α} {ys : List β}
    (h : xs.mapM f = .ok ys) {y : β} (member : y ∈ ys) : ∃ x ∈ xs, f x = .ok y := by
  have pointwise := mapM_ok_iff.mp h
  obtain ⟨i, bound, rfl⟩ := List.getElem_of_mem member
  exact ⟨_, List.get_mem _ _, pointwise.get (pointwise.length_eq ▸ bound) bound⟩

theorem mapM_ok_mem_left {ε α β : Type} {f : α → Except ε β} {xs : List α} {ys : List β}
    (h : xs.mapM f = .ok ys) {x : α} (member : x ∈ xs) : ∃ y, f x = .ok y := by
  have pointwise := mapM_ok_iff.mp h
  obtain ⟨i, bound, rfl⟩ := List.getElem_of_mem member
  exact ⟨_, pointwise.get bound (pointwise.length_eq ▸ bound)⟩

theorem mapM_eq_map {ε α β : Type} {f : α → Except ε β} {value : α → β} {xs : List α} {ys : List β}
    (only : ∀ x y, f x = .ok y → y = value x) (h : xs.mapM f = .ok ys) : ys = xs.map value := by
  have pointwise : List.Forall₂ (fun x y => value x = y) xs ys :=
    (mapM_ok_iff.mp h).imp fun x y result => (only x y result).symm
  rw [← List.forall₂_map_left_iff, List.forall₂_eq_eq_eq] at pointwise
  exact pointwise.symm

theorem forall₂_filterMap_of_mapM {ε α β : Type} {f : α → Except ε (Option β)} {p : α → Prop}
    [DecidablePred p] {xs : List α} {results : List (Option β)}
    (gives : ∀ x ∈ xs, ∀ result, f x = .ok result → (result.isSome = true ↔ p x))
    (h : xs.mapM f = .ok results) :
    List.Forall₂ (fun x y => f x = .ok (some y)) (xs.filter fun x => p x)
      (results.filterMap id) := by
  replace h := mapM_ok_iff.mp h
  induction h with
  | nil => exact .nil
  | @cons x result xs results first _ ih =>
    have rest := ih fun x member => gives x (List.mem_cons_of_mem _ member)
    have chosen := gives x List.mem_cons_self result first
    cases result with
    | none =>
      have dropped : ¬p x := fun taken => by simpa using chosen.mpr taken
      simpa [dropped] using rest
    | some y =>
      have taken : p x := chosen.mp rfl
      rw [List.filter_cons_of_pos (by simpa using taken)]
      exact .cons first rest

/-! ### Lines -/

namespace Statement

theorem ofLine_ok {table : OpcodeTable} {line : SourceLine} {statement : Statement}
    (h : ofLine table line = .ok statement) :
    statement.line = line ∧ statement.operation = Operation.classify table line.mnemonic ∧
      statement.operation.size? line = .ok statement.size := by
  unfold ofLine at h
  obtain ⟨size, sized, h⟩ := bind_ok h
  obtain rfl := pure_ok h
  exact ⟨rfl, rfl, sized⟩

theorem read_ok {table : OpcodeTable} {file : String} {input : LineInput × Nat}
    {statement : Statement} (h : read table file input = .ok statement) :
    input.1.read file input.2 = .ok statement.line ∧
      ofLine table statement.line = .ok statement := by
  unfold read at h
  obtain ⟨line, taken, h⟩ := bind_ok h
  obtain rfl := (ofLine_ok h).1
  exact ⟨taken, h⟩

theorem readAll_ok {table : OpcodeTable} {file : String} {source : Source}
    {statements : List Statement} (h : readAll table file source = .ok statements) :
    source.read file = .ok (statements.map Statement.line) ∧
      ∀ statement ∈ statements, ofLine table statement.line = .ok statement := by
  constructor
  · apply mapM_ok_iff.mpr
    rw [List.forall₂_map_right_iff]
    exact (mapM_ok_iff.mp h).imp fun _ _ taken => (read_ok taken).1
  · intro statement member
    obtain ⟨input, _, taken⟩ := mapM_ok_mem h member
    exact (read_ok taken).2

end Statement

theorem LineInput.number_of_read {input : LineInput} {file : String} {number : Int}
    {line : SourceLine} (h : input.read file number = .ok line) : line.number = number := by
  cases input with
  | text => rw [← Except.ok.inj h, SourceLine.read]
  | value => cases h

theorem Source.number_of_read {source : Source} {file : String} {lines : List SourceLine}
    (h : source.read file = .ok lines) (i : Nat) (bound : i < lines.length) :
    lines[i].number = i + 1 := by
  have pointwise := mapM_ok_iff.mp h
  have taken := pointwise.get (pointwise.length_eq ▸ bound) bound
  have number := LineInput.number_of_read taken
  simp only [List.get_eq_getElem, Source.numbered, List.getElem_zipIdx] at number
  omega

theorem Source.pairwise_number {source : Source} {file : String} {lines : List SourceLine}
    (h : source.read file = .ok lines) :
    lines.Pairwise fun earlier later => earlier.number < later.number := by
  rw [List.pairwise_iff_getElem]
  intro i j first second before
  rw [Source.number_of_read h i first, Source.number_of_read h j second]
  omega

theorem exists_text_of_mapM_read {file : String} {inputs : List LineInput} {start : Nat}
    {lines : List SourceLine} {line : SourceLine}
    (read : (inputs.zipIdx start).mapM (fun (input, number) => input.read file number) = .ok lines)
    (member : line ∈ lines) :
    ∃ text number, .text text ∈ inputs ∧ line = SourceLine.read file number text := by
  obtain ⟨⟨input, number⟩, present, taken⟩ := mapM_ok_mem read member
  cases input with
  | text text =>
    have listed : LineInput.text text ∈ inputs := List.fst_mem_of_mem_zipIdx present
    exact ⟨text, number, listed, (Except.ok.inj taken).symm⟩
  | value typeName => cases taken

theorem Source.read_texts {source : Source} {texts : List String}
    (inputs : source.inputs = texts.map LineInput.text) (file : String) :
    source.read file =
      .ok ((texts.zipIdx 1).map fun entry => SourceLine.read file entry.2 entry.1) := by
  apply mapM_ok_iff.mpr
  rw [numbered, inputs, List.zipIdx_map, List.forall₂_map_left_iff, List.forall₂_map_right_iff,
    List.forall₂_same]
  intro entry _
  rfl

theorem Layout.ofSource_ok {table : OpcodeTable} {file : String} {source : Source}
    {layout : Layout} (h : Layout.ofSource table file source = .ok layout) :
    ∃ statements, Statement.readAll table file source = .ok statements ∧
      layout = Layout.ofStatements table statements := by
  unfold Layout.ofSource at h
  obtain ⟨statements, read, h⟩ := bind_ok h
  exact ⟨statements, read, pure_ok h⟩

end SicAssembler
