/-!
Why a file could not be opened, with the number and the wording that the system gives each cause.
-/

namespace SicAssembler

structure FileFault where
  number : Nat
  reason : String
  deriving DecidableEq, Repr

namespace FileFault

def notFound : FileFault := ⟨2, "No such file or directory"⟩

def denied : FileFault := ⟨13, "Permission denied"⟩

def notDirectory : FileFault := ⟨20, "Not a directory"⟩

def isDirectory : FileFault := ⟨21, "Is a directory"⟩

def nameTooLong : FileFault := ⟨36, "File name too long"⟩

end FileFault

end SicAssembler
