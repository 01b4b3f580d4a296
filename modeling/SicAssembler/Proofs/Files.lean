import Mathlib.Tactic.SplitIfs
import SicAssembler.Disk
import SicAssembler.Proofs.Reading

/-!
Files that are written. A write puts a file at a place that is no directory and leaves every other
place as it was, so all paths lead where they led before, the file holds what was written
(`stored_writeText`) and every other file what it held (`stored_of_writeText`).
-/

namespace SicAssembler.Disk

variable {disk after : Disk} {path : RawText} {place : Place} {content : ByteArray}

/-! ### Writing -/

theorem target_ok_iff :
    disk.target path = .ok place ↔
      Path.isFolder path = false ∧ disk.locate path = .ok place ∧
        disk.node? place ≠ some .directory ∧ disk.opens place .writing = .ok () := by
  unfold target
  cases folder : Path.isFolder path with
  | true =>
    simp only [if_true, Bool.true_eq_false, false_and, iff_false]
    intro h
    obtain ⟨_, _, h⟩ := bind_ok h
    cases h
  | false =>
    cases located : disk.locate path with
    | error fault => simp [bind, Except.bind]
    | ok found =>
      simp only [Bool.false_eq_true, if_false, true_and, Except.ok.injEq, bind, Except.bind]
      constructor
      · intro h
        split at h
        · cases h
        · rename_i usable
          obtain ⟨_, opened, h⟩ := bind_ok (x := disk.opens found .writing) h
          obtain rfl := pure_ok h
          exact ⟨rfl, usable, opened⟩
      · rintro ⟨rfl, usable, opened⟩
        split
        · rename_i directory
          exact (usable directory).elim
        · rw [opened]
          rfl

theorem write_ok (h : disk.write path content = .ok after) :
    ∃ place, disk.target path = .ok place ∧ after = disk.put place content := by
  unfold write at h
  obtain ⟨place, found, h⟩ := bind_ok h
  exact ⟨place, found, pure_ok h⟩

section Put

variable (free : disk.node? place ≠ some .directory)
include free

theorem node?_put (content : ByteArray) (other : Place) :
    (disk.put place content).node? other =
      if other = place then some (.file content) else disk.node? other := by
  unfold put node? at *
  dsimp only at free ⊢
  rw [OrderedMap.get?_insert]
  by_cases same : other = place
  · subst same
    have below : ¬other.isPrefixOf disk.home = true := fun always => free (if_pos always)
    rw [if_neg below, if_pos rfl, if_pos rfl]
  · rw [if_neg same, if_neg same]

theorem directory_put (content : ByteArray) (other : Place)
    (directory : disk.node? other = some .directory) :
    (disk.put place content).node? other = some .directory := by
  have apart : other ≠ place := fun same => free (same ▸ directory)
  rw [node?_put free, if_neg apart, directory]

theorem walk_put (content : ByteArray) {start target : Place} {parts : List RawText}
    (walked : disk.walk start parts = .ok target) :
    (disk.put place content).walk start parts = .ok target := by
  induction parts generalizing start with
  | nil => exact walked
  | cons part rest ih =>
    unfold walk at walked ⊢
    split at walked
    · rename_i directory
      rw [directory_put free content start directory]
      dsimp only
      split_ifs at walked ⊢
      exact ih walked
    · cases walked
    · cases walked

theorem locate_put (content : ByteArray) {target : Place}
    (located : disk.locate path = .ok target) :
    (disk.put place content).locate path = .ok target := by
  unfold locate follow at located ⊢
  split_ifs at located ⊢
  all_goals exact walk_put free content located

end Put

/-! ### Reading back -/

theorem stored_eq (located : disk.locate path = .ok place) :
    disk.stored path =
      match disk.node? place with
      | some (.file content) => .ok content
      | some .directory => .error .isDirectory
      | none => .error .notFound := by
  simp only [stored, find, located, bind, Except.bind]
  cases disk.node? place with
  | none => rfl
  | some node => cases node <;> rfl

theorem locate_of_stored (there : disk.stored path = .ok content) :
    ∃ place, disk.locate path = .ok place := by
  obtain ⟨_, found, _⟩ := bind_ok there
  obtain ⟨place, located, _⟩ := bind_ok found
  exact ⟨place, located⟩

theorem stored_write (h : disk.write path content = .ok after) : after.stored path = .ok content := by
  obtain ⟨place, found, rfl⟩ := write_ok h
  obtain ⟨_, located, free, _⟩ := target_ok_iff.mp found
  rw [stored_eq (locate_put free content located), node?_put free, if_pos rfl]

theorem attempt_ok {α : Type} {outcome : Except FileFault α} {value : α} :
    attempt path outcome = .ok value ↔ Path.hasNul path = false ∧ outcome = .ok value := by
  unfold attempt
  cases Path.hasNul path <;> cases outcome <;> simp

theorem attempt_error {α : Type} {outcome : Except FileFault α} {failure : Failure}
    (clean : Path.hasNul path = false) (refused : attempt path outcome = .error failure) :
    ∃ fault, failure = .file fault path := by
  unfold attempt at refused
  cases outcome with
  | ok value => simp [clean] at refused
  | error fault => exact ⟨fault, by simpa [clean, eq_comm] using refused⟩

/-! ### Files that are written and others -/

section Written

variable {text : String} {other : RawText} (written : disk.writeText path text = .ok after)
include written

theorem writeText_ok :
    ∃ place, disk.target (Path.normalize path) = .ok place ∧ after = disk.put place text.toUTF8 := by
  obtain ⟨_, written⟩ := attempt_ok.mp written
  exact write_ok written

/-- A file holds exactly the text that was written to it. -/
theorem stored_writeText : after.stored (Path.normalize path) = .ok text.toUTF8 := by
  obtain ⟨_, written⟩ := attempt_ok.mp written
  exact stored_write written

/-- A path that leads to a place for a file leads there also after a write. -/
theorem target_of_writeText (led : disk.target other = .ok place) :
    after.target other = .ok place := by
  obtain ⟨place', found, rfl⟩ := writeText_ok written
  obtain ⟨_, _, free, _⟩ := target_ok_iff.mp found
  obtain ⟨plain, located, usable, opened⟩ := target_ok_iff.mp led
  refine target_ok_iff.mpr ⟨plain, locate_put free _ located, ?_, opened⟩
  rw [node?_put free]
  split
  · simp
  · exact usable

/-- A file at another place than the one that is written stays as it is. -/
theorem stored_of_writeText (led : disk.target other = .ok place)
    (apart : disk.target (Path.normalize path) ≠ disk.target other) :
    after.stored other = disk.stored other := by
  obtain ⟨place', found, rfl⟩ := writeText_ok written
  obtain ⟨_, _, free, _⟩ := target_ok_iff.mp found
  obtain ⟨_, located, _⟩ := target_ok_iff.mp led
  have different : place ≠ place' := by
    rintro rfl
    exact apart (found.trans led.symm)
  rw [stored_eq (locate_put free _ located), stored_eq located, node?_put free, if_neg different]

end Written

end SicAssembler.Disk
