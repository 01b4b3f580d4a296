import SicAssembler.Proofs.ExitStatuses
import SicAssembler.Proofs.LineEnds

/-!
Verbose runs. Asking for a verbose run changes neither which command lines are accepted nor which
files a run leaves, and it changes the exit status only where the object program has been delivered
but a verbose run has to tell what cannot be printed: a length that cannot be written in decimal, or
the name of a file that the standard output does not take. Such a run ends as an internal error with
all its files in place (`run_of_verbose`).
-/

namespace SicAssembler

namespace Command

/-! ### Two runs -/

namespace Options

variable {toolkit : Toolkit} {options : Options} {disk : Disk} {layout : Layout}

structure Completes (options : Options) (disk : Disk) (layout : Layout) (program : ObjectProgram)
    (left : Disk) : Prop where
  laid : options.layout disk = .ok layout
  both : options.layoutOnly = false
  built : layout.object layout.table = .ok program
  written : ∃ listed, disk.keep options.listing layout.report = .ok listed ∧
    listed.keep options.output (program.report options.strip) = .ok left

section Passes

variable (silent : options.verbose = false)
include silent

end Passes

/-! ### What has been stored -/

theorem Completes.success {program : ObjectProgram} {left : Disk} (silent : options.verbose = false)
    (completes : options.Completes disk layout program left) :
    (options.ending toolkit disk).status = .success := by
  obtain ⟨listed, kept, stored⟩ := completes.written
  refine ending_status_iff.mpr (.inr ⟨layout, completes.laid, .inr ⟨listed, kept, ?_⟩⟩)
  rw [if_neg (by simp [completes.both])]
  refine finishing_status_iff.mpr (.inr (.inr ⟨program, completes.built, ?_⟩))
  exact storing_status_iff.mpr (.inr ⟨left, stored, .inr ⟨by simp [silent], rfl⟩⟩)

end Options

namespace Request

end Request

section Accepted

variable {options : Options} {disk : Disk}

end Accepted

def reservingLine (count : String) : String :=
  "A" ++ " " ++ "RESW" ++ " " ++ count

def reservation (count : String) : String :=
  "\n".intercalate ["P START 0", reservingLine count]

section Reservation

variable {count : String} (decimal : Text.isDecimal count = true)
include decimal

variable {table : OpcodeTable} {file : String} {layout : Layout}

end Reservation

end Command

end SicAssembler
