import SicAssembler.Proofs.Files
import SicAssembler.Proofs.Separators

/-!
Paths and their normal form. A path and its normal form have the same root and the same steps
(`root_normalize`, `steps_normalize`), so whatever a path leads to is found under the normal form
too (`Disk.locate_normalize`). The converse fails, for the parts that are left out may ask for
directories that are not there.
-/

namespace SicAssembler

namespace RawText

theorem size_append (front back : RawText) : size (front ++ back) = size front + size back := by
  rw [size, bytes, List.flatMap_append, List.length_append, size, size, bytes, bytes]

theorem size_pos {raw : RawText} (filled : raw ≠ []) : 0 < raw.size := by
  cases raw with
  | nil => exact (filled rfl).elim
  | cons glyph rest =>
    have own : 0 < glyph.bytes.length := by
      cases glyph with
      | char c => exact String.length_utf8EncodeChar c ▸ c.utf8Size_pos
      | byte b => exact Nat.one_pos
    rw [size, bytes, List.flatMap_cons, List.length_append]
    omega

end RawText

namespace Path

def steps (path : RawText) : List RawText :=
  (parts path).filter isStep

def joined (path : RawText) : RawText :=
  [slash].intercalate (steps path)

/-! ### Parts -/

theorem intercalate_parts (path : RawText) : [slash].intercalate (parts path) = path :=
  List.intercalate_splitOn slash

theorem parts_slash (rest : RawText) : parts (slash :: rest) = [] :: parts rest := by
  rw [parts, List.splitOn_cons_eq_if_modifyHead]
  rfl

theorem steps_slash (rest : RawText) : steps (slash :: rest) = steps rest := by
  rw [steps, parts_slash]
  rfl

theorem parts_joined {path : RawText} (some : steps path ≠ []) : parts (joined path) = steps path := by
  apply List.splitOn_intercalate slash _ some
  intro part member
  exact Text.not_mem_of_mem_splitOn (List.mem_filter.mp member).1

theorem steps_joined (path : RawText) : steps (joined path) = steps path := by
  by_cases some : steps path = []
  · rw [joined, some]
    rfl
  · rw [steps, parts_joined some, steps, List.filter_filter]
    simp

/-! ### Roots -/

theorem root_mem (path : RawText) :
    root path = [] ∨ root path = [slash] ∨ root path = [slash, slash] := by
  unfold root
  split <;> simp

theorem isAbsolute_eq (path : RawText) : isAbsolute path = (root path != []) := by
  unfold isAbsolute root
  split
  · rfl
  · rfl
  · rfl
  · rename_i other
    cases path with
    | nil => rfl
    | cons glyph rest =>
      have apart : glyph ≠ slash := fun same => other rest (same ▸ rfl)
      simpa using apart

theorem root_append {path rest : RawText} (plain : isAbsolute rest = false) :
    root (root path ++ rest) = root path := by
  have start : ∀ tail, rest ≠ .char '/' :: tail := by
    rintro tail rfl
    cases plain
  rcases root_mem path with none | one | two
  · rw [none, List.nil_append]
    simpa [isAbsolute_eq] using plain
  · rw [one]
    unfold root
    split
    · rename_i same
      exact (start _ (List.cons.inj same).2).elim
    · rename_i same
      exact (start _ (List.cons.inj same).2).elim
    · rfl
    · rename_i other
      exact (other _ rfl).elim
  · rw [two]
    unfold root
    split
    · rename_i same
      exact (start _ (List.cons.inj (List.cons.inj same).2).2).elim
    · rfl
    · rename_i other same
      exact (other rest (List.cons.inj same).2.symm).elim
    · rename_i other _
      exact (other _ rfl).elim

theorem exists_rest (path : RawText) :
    ∃ rest, path = root path ++ rest ∧ steps path = steps rest := by
  unfold root
  split
  · exact ⟨_, rfl, steps_slash _⟩
  · exact ⟨_, rfl, (steps_slash _).trans (steps_slash _)⟩
  · exact ⟨_, rfl, steps_slash _⟩
  · exact ⟨path, rfl, rfl⟩

/-! ### The normal form -/

theorem isStep_of_mem_steps {path part : RawText} (member : part ∈ steps path) :
    isStep part = true :=
  (List.mem_filter.mp member).2

theorem isAbsolute_joined (path : RawText) : isAbsolute (joined path) = false := by
  by_cases some : steps path = []
  · rw [joined, some]
    rfl
  · rw [Bool.eq_false_iff]
    intro absolute
    obtain ⟨tail, same⟩ := List.head?_eq_some_iff.mp (eq_of_beq absolute)
    have split := parts_joined some
    rw [same, parts_slash] at split
    cases isStep_of_mem_steps (split ▸ List.mem_cons_self)

theorem normalize_eq (path : RawText) :
    normalize path =
      if (root path ++ joined path).isEmpty then RawText.ofString "."
      else root path ++ joined path := rfl

theorem normalize_cases (path : RawText) :
    normalize path = root path ++ joined path ∨
      root path = [] ∧ steps path = [] ∧ normalize path = "." := by
  by_cases empty : root path ++ joined path = []
  · obtain ⟨rootless, nothing⟩ := List.append_eq_nil_iff.mp empty
    have none := steps_joined path
    rw [nothing] at none
    rw [normalize_eq, if_pos (List.isEmpty_iff.mpr empty)]
    exact .inr ⟨rootless, none.symm, rfl⟩
  · rw [normalize_eq, if_neg (mt List.isEmpty_iff.mp empty)]
    exact .inl rfl

theorem normalize_ne_nil (path : RawText) : normalize path ≠ [] := by
  rw [normalize_eq]
  split
  · decide
  · rename_i filled
    exact mt List.isEmpty_iff.mpr filled

theorem root_normalize (path : RawText) : root (normalize path) = root path := by
  rcases normalize_cases path with whole | ⟨rootless, _, dot⟩
  · rw [whole, root_append (isAbsolute_joined path)]
  · rw [dot, rootless]
    rfl

theorem parts_normalize (path : RawText) :
    ∃ idle, (∀ part ∈ idle, part = [] ∨ part = ".") ∧
      parts (normalize path) = idle ++ steps path := by
  rcases normalize_cases path with whole | ⟨_, none, dot⟩
  · have split : ∃ idle, (∀ part ∈ idle, part = [] ∨ part = ".") ∧
        parts (joined path) = idle ++ steps path := by
      by_cases some : steps path = []
      · rw [joined, some]
        exact ⟨[[]], by simp, rfl⟩
      · exact ⟨[], by simp, parts_joined some⟩
    obtain ⟨idle, dull, split⟩ := split
    rw [whole]
    rcases root_mem path with root | root | root
    · rw [root, List.nil_append]
      exact ⟨idle, dull, split⟩
    · rw [root, List.singleton_append, parts_slash, split]
      exact ⟨[] :: idle, by simpa using dull, rfl⟩
    · rw [root, List.cons_append, List.singleton_append, parts_slash, parts_slash, split]
      exact ⟨[] :: [] :: idle, by simpa using dull, rfl⟩
  · rw [dot, none]
    exact ⟨["."], by simp, rfl⟩

theorem steps_normalize (path : RawText) : steps (normalize path) = steps path := by
  obtain ⟨idle, dull, split⟩ := parts_normalize path
  have unused : idle.filter isStep = [] := by
    rw [List.filter_eq_nil_iff]
    intro part member
    rcases dull part member with rfl | rfl <;> decide
  have kept : (steps path).filter isStep = steps path := by
    rw [steps, List.filter_filter]
    simp
  rw [steps, split, List.filter_append, unused, kept, List.nil_append]

theorem normalize_normalize (path : RawText) : normalize (normalize path) = normalize path := by
  rw [normalize_eq (normalize path), root_normalize, joined, steps_normalize, ← joined,
    ← normalize_eq]

theorem isAbsolute_normalize (path : RawText) : isAbsolute (normalize path) = isAbsolute path := by
  rw [isAbsolute_eq, isAbsolute_eq, root_normalize]

theorem hasNul_normalize {path : RawText} (clean : hasNul path = false) :
    hasNul (normalize path) = false := by
  have absent : .char (Char.ofNat 0) ∉ path := by simpa [hasNul] using clean
  suffices .char (Char.ofNat 0) ∉ normalize path by simpa [hasNul] using this
  rcases normalize_cases path with whole | ⟨_, _, dot⟩
  · rw [whole, List.mem_append, not_or]
    constructor
    · rcases root_mem path with root | root | root <;> rw [root] <;> decide
    · intro member
      rcases Text.mem_intercalate_list member with between | ⟨part, kept, inside⟩
      · revert between
        decide
      · exact absent (Text.mem_of_mem_splitOn (List.mem_filter.mp kept).1 inside)
  · rw [dot]
    decide

theorem size_filter_parts (parts : List RawText) (keep : RawText → Bool) :
    RawText.size ([slash].intercalate (parts.filter keep)) ≤
      RawText.size ([slash].intercalate parts) := by
  induction parts with
  | nil => exact Nat.le_refl _
  | cons part rest ih =>
    by_cases last : rest = []
    · subst last
      cases kept : keep part <;> simp [kept, RawText.size, RawText.bytes]
    · rw [List.intercalate_cons_of_ne_nil last, List.filter_cons]
      simp only [RawText.size_append]
      split
      · by_cases final : rest.filter keep = []
        · rw [final, List.intercalate_singleton]
          omega
        · rw [List.intercalate_cons_of_ne_nil final]
          simp only [RawText.size_append]
          omega
      · omega

theorem size_normalize {path : RawText} (some : path ≠ []) : (normalize path).size ≤ path.size := by
  rcases normalize_cases path with whole | ⟨_, _, dot⟩
  · obtain ⟨rest, same, same_steps⟩ := exists_rest path
    have shorter := size_filter_parts (parts rest) isStep
    have total := congrArg RawText.size same
    rw [RawText.size_append] at total
    rw [intercalate_parts] at shorter
    rw [whole, RawText.size_append, joined, same_steps, steps]
    omega
  · have positive := RawText.size_pos some
    rw [dot]
    change 1 ≤ path.size
    omega

end Path

/-! ### What a path leads to -/

namespace Disk

variable {disk : Disk} {path : RawText} {place target : Place}

theorem node?_origin (disk : Disk) (path : RawText) :
    disk.node? (disk.origin path) = some .directory := by
  unfold origin node?
  split <;> simp

theorem walk_steps {parts : List RawText} (walked : disk.walk place parts = .ok target) :
    disk.walk place (parts.filter Path.isStep) = .ok target := by
  induction parts generalizing place with
  | nil => exact walked
  | cons part rest ih =>
    rw [walk] at walked
    split at walked
    · rename_i directory
      split at walked
      · cases walked
      · rename_i short
        rw [List.filter_cons]
        split
        · rw [walk, directory]
          dsimp only
          rw [if_neg short]
          exact ih walked
        · rename_i idle
          rw [Place.enter, if_pos (by simpa using idle)] at walked
          exact ih walked
    · cases walked
    · cases walked

theorem walk_idle (directory : disk.node? place = some .directory) {idle : List RawText}
    (dull : ∀ part ∈ idle, part = [] ∨ part = ".") (rest : List RawText) :
    disk.walk place (idle ++ rest) = disk.walk place rest := by
  induction idle with
  | nil => rfl
  | cons part more ih =>
    have stays := ih fun part member => dull part (List.mem_cons_of_mem _ member)
    rw [List.cons_append, walk, directory]
    dsimp only
    rcases dull part List.mem_cons_self with rfl | rfl
    · rw [if_neg (by decide)]
      exact stays
    · rw [if_neg (by decide)]
      exact stays

/-- What a path leads to, its normal form leads to. -/
theorem locate_normalize (located : disk.locate path = .ok place) :
    disk.locate (Path.normalize path) = .ok place := by
  unfold locate follow at located ⊢
  split at located
  · cases located
  split at located
  · cases located
  rename_i some short
  have fits := Path.size_normalize (mt List.isEmpty_iff.mpr some)
  obtain ⟨idle, dull, split⟩ := Path.parts_normalize path
  have filled := mt List.isEmpty_iff.mp (Path.normalize_ne_nil path)
  have origin : disk.origin (Path.normalize path) = disk.origin path := by
    rw [Disk.origin, Path.isAbsolute_normalize, Disk.origin]
  rw [if_neg filled, if_neg (by omega), origin, split, walk_idle (node?_origin disk path) dull]
  exact walk_steps located

theorem stored_normalize (located : disk.locate path = .ok place) :
    disk.stored (Path.normalize path) = disk.stored path := by
  rw [stored_eq located, stored_eq (locate_normalize located)]

theorem read_normalize (located : disk.locate path = .ok place) :
    disk.read (Path.normalize path) = disk.read path := by
  rw [read, read, stored_normalize located, located, locate_normalize located]

theorem readText_normalize (disk : Disk) (path : RawText) :
    disk.readText (Path.normalize path) = disk.readText path := by
  unfold readText
  rw [Path.normalize_normalize]

theorem writeText_normalize (disk : Disk) (path : RawText) (text : String) :
    disk.writeText (Path.normalize path) text = disk.writeText path text := by
  unfold writeText
  rw [Path.normalize_normalize]

end Disk

end SicAssembler
