import SicAssembler.Command.Toolkit

/-!
How the command ends. A program that is rejected, a file or argument that cannot be used, and
anything else that goes wrong each have their exit status and their way of being told.
-/

namespace SicAssembler.Command

inductive ExitStatus where
  | success
  | buildError
  | invalidArguments
  | internalError
  deriving DecidableEq, Repr

def ExitStatus.code : ExitStatus → Nat
  | .success => 0
  | .buildError => 1
  | .invalidArguments => 2
  | .internalError => 3

def ExitStatus.ofFailure : Failure → ExitStatus
  | .assembly _ | .plain _ => .buildError
  | .file .. => .invalidArguments
  | .nulInPath | .encoding _ | .unprintable _ | .numeral _ | .missingMnemonic _ => .internalError

inductive Cause where
  | failure (reason : Failure)
  | argument (message : String)
  | system (message : String)
  | unforeseen (message : String)
  deriving DecidableEq, Repr

namespace Cause

def status : Cause → ExitStatus
  | .failure reason => .ofFailure reason
  | .argument _ | .system _ => .invalidArguments
  | .unforeseen _ => .internalError

def text : Cause → String
  | .failure reason => reason.text
  | .argument message | .system message | .unforeseen message => message

/-- The words before the message. A topic says what was being done. -/
def heading (topic : String) : ExitStatus → String
  | .buildError => if topic.isEmpty then "Error: " else topic ++ " error: "
  | .internalError => "Internal error: "
  | _ => "Error: "

/-- Stands where the steps that led to an internal error would be listed. -/
def traceMark : String := "<traceback>"

def report (cause : Cause) (toolkit : Toolkit) (topic : String) (verbose : Bool) : String :=
  toolkit.complain (heading topic cause.status ++ cause.text ++ "\n")
    ++ if verbose && cause.status == .internalError then traceMark else ""

end Cause

end SicAssembler.Command
