import SicAssembler.Command
import SicAssembler.Proofs.Paths

/-!
The files of a command line, and what the command relies on of its toolkit. On a command line that is
accepted the files to be read are there (`Options.Accepted`), also under the normal form of their
paths, and what can go wrong later is that one of them cannot be opened or is no text, or that a
report cannot be written. A report that is kept in its file (`Disk.keep`) leaves the others alone.
-/

namespace SicAssembler

namespace Disk

/-! ### Files that are there -/

structure HasFile (disk : Disk) (path : RawText) : Prop where
  clean : Path.hasNul path = false
  held : ∃ content, disk.stored path = .ok content

def Unreadable (disk : Disk) (path : RawText) : Prop :=
  ∃ fault, disk.loadText path = .error (.file fault path)

/-- A file that is no text. -/
def Undecodable (disk : Disk) (path : RawText) : Prop :=
  ∃ fault, disk.loadText path = .error (.encoding fault)

variable {disk : Disk} {path : RawText}

/-- A file is opened, and read, under the normal form of its path as under the path itself. -/
theorem loadText_cases (there : disk.HasFile path) :
    (∃ fault, disk.loadText path = .error (.file fault path) ∧
      disk.loadText (Path.normalize path) = .error (.file fault (Path.normalize path))) ∨
    (∃ fault, disk.loadText path = .error (.encoding fault) ∧
      disk.loadText (Path.normalize path) = .error (.encoding fault)) ∨
    ∃ text, disk.loadText path = .ok text ∧ disk.loadText (Path.normalize path) = .ok text := by
  obtain ⟨clean, content, held⟩ := there
  obtain ⟨place, located⟩ := locate_of_stored held
  have same := read_normalize located
  have clean_normal := Path.hasNul_normalize clean
  unfold loadText load attempt
  rw [clean, clean_normal, same]
  cases disk.read path with
  | error fault => exact .inl ⟨fault, rfl, rfl⟩
  | ok bytes =>
    cases decoded : Text.decode bytes with
    | error fault => exact .inr (.inl ⟨fault, by simp [bind, Except.bind, decoded]⟩)
    | ok text => exact .inr (.inr ⟨text, by simp [bind, Except.bind, decoded]⟩)

theorem readText_ok_iff (there : disk.HasFile path) {program : String} :
    disk.readText path = .ok program ↔
      ∃ text, disk.loadText path = .ok text ∧ program = Text.unifyNewlines text := by
  unfold readText
  rcases loadText_cases there with ⟨fault, given, normal⟩ | ⟨fault, given, normal⟩ |
    ⟨text, given, normal⟩ <;> simp [given, normal, Except.map, eq_comm]

theorem readText_error_iff (there : disk.HasFile path) {failure : Failure} :
    disk.readText path = .error failure ↔
      (∃ fault, disk.loadText path = .error (.file fault path) ∧
        failure = .file fault (Path.normalize path)) ∨
      ∃ fault, disk.loadText path = .error (.encoding fault) ∧ failure = .encoding fault := by
  unfold readText
  rcases loadText_cases there with ⟨fault, given, normal⟩ | ⟨fault, given, normal⟩ |
    ⟨text, given, normal⟩ <;> simp [given, normal, Except.map, eq_comm]

/-! ### Reports that are kept -/

/-- A disk with a report in the file that is named for it, if one is. -/
def keep (disk : Disk) (path : Option RawText) (report : String) : Except Failure Disk :=
  match path with
  | some path => disk.writeText path report
  | none => .ok disk

section Kept

variable {after : Disk} {path : Option RawText} {report : String} {other : RawText} {place : Place}

theorem exists_keep (clean : ∀ name ∈ path, Path.hasNul name = false)
    (writable : ∀ name ∈ path, ∃ place, disk.target (Path.normalize name) = .ok place)
    (report : String) : ∃ after, disk.keep path report = .ok after := by
  cases path with
  | none => exact ⟨disk, rfl⟩
  | some name =>
    obtain ⟨place, led⟩ := writable name rfl
    have written : disk.write (Path.normalize name) report.toUTF8 =
        .ok (disk.put place report.toUTF8) := by
      rw [write, led]
      rfl
    exact ⟨_, attempt_ok.mpr ⟨Path.hasNul_normalize (clean name rfl), written⟩⟩

theorem keep_error {failure : Failure}
    (clean : ∀ name ∈ path, Path.hasNul name = false)
    (refused : disk.keep path report = .error failure) : ∃ fault name, failure = .file fault name := by
  cases path with
  | none => cases refused
  | some name =>
    obtain ⟨fault, rfl⟩ := attempt_error (Path.hasNul_normalize (clean name rfl)) refused
    exact ⟨fault, _, rfl⟩

theorem target_of_keep (kept : disk.keep path report = .ok after)
    (led : disk.target other = .ok place) : after.target other = .ok place := by
  cases path with
  | none =>
    obtain rfl := Except.ok.inj kept
    exact led
  | some name => exact target_of_writeText kept led

theorem stored_of_keep (kept : disk.keep path report = .ok after)
    (led : disk.target other = .ok place)
    (apart : ∀ name ∈ path, disk.target (Path.normalize name) ≠ disk.target other) :
    after.stored other = disk.stored other := by
  cases path with
  | none =>
    obtain rfl := Except.ok.inj kept
    rfl
  | some name => exact stored_of_writeText kept led (apart name rfl)

end Kept

end Disk

namespace Command

/-! ### What is relied on -/

/-- The files that the options name: those to be read are there, and those to be written can have
the names they are given. -/
structure Options.Accepted (options : Options) (disk : Disk) : Prop where
  input : disk.HasFile options.input
  opcodes : ∀ path ∈ options.opcodes, disk.HasFile path
  output : ∀ path ∈ options.output, Path.hasNul path = false
  listing : ∀ path ∈ options.listing, Path.hasNul path = false

def Options.aloud (options : Options) : Options :=
  { options with verbose := true }

namespace Request

def aloud : Request → Request
  | answer text => .answer text
  | assemble options => .assemble options.aloud

end Request

namespace Toolkit

/-- What the command relies on of its toolkit. -/
structure Lawful (toolkit : Toolkit) : Prop where
  /-- Paths have been looked up before there is anything to do. -/
  accepted {disk : Disk} {arguments : List RawText} {options : Options} :
    toolkit.parse disk arguments = .ok (.assemble options) → options.Accepted disk
  /-- A switch in front asks for a verbose run and for nothing else. -/
  verbose {disk : Disk} {arguments : List RawText} {request : Request} :
    toolkit.parse disk arguments = .ok request →
      toolkit.parse disk ("-v" :: arguments) = .ok request.aloud
  /-- Only what begins with an escape character is taken for a control sequence. -/
  unstyle {raw : RawText} : Glyph.controlStart ∉ raw → toolkit.unstyle raw = raw
  /-- The standard output takes all text. -/
  text (text : String) : toolkit.fault? (toolkit.shown text) = none

def Unprintable (toolkit : Toolkit) (raw : RawText) : Prop :=
  ∃ fault, toolkit.print raw = .error (.unprintable fault)

theorem print_cases (toolkit : Toolkit) (raw : RawText) :
    toolkit.Unprintable raw ∨ toolkit.print raw = .ok (toolkit.shown raw) := by
  unfold Unprintable print
  cases toolkit.fault? (toolkit.shown raw) with
  | none => exact .inr rfl
  | some fault => exact .inl ⟨fault, rfl⟩

theorem Lawful.shown_of_not_mem {toolkit : Toolkit} (lawful : toolkit.Lawful) {raw : RawText}
    (unstyled : Glyph.controlStart ∉ raw) : toolkit.shown raw = raw := by
  rw [shown, lawful.unstyle unstyled, ite_self]

theorem Lawful.print_text {toolkit : Toolkit} (lawful : toolkit.Lawful) (text : String) :
    toolkit.print text = .ok (toolkit.shown text) := by
  rw [print, lawful.text]

end Toolkit

end Command

end SicAssembler
