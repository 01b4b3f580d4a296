import SicAssembler.Command
import SicAssembler.Command.Standard

/-!
The program: `Command.run` on the real files. The files and directories that the arguments name are
read first, the command runs on what was found, and the files it changed are written back.
-/

namespace SicAssembler.Main

/-- The beginnings of a path, each a path itself. -/
def beginnings (path : RawText) : List RawText :=
  let parts := Path.parts path
  ((List.range parts.length).map fun n => [Path.slash].intercalate (parts.take (n + 1))).filter
    (!·.isEmpty)

def faultOf : IO.Error → FileFault
  | .permissionDenied .. => .denied
  | _ => ⟨5, "Input/output error"⟩

def look (disk : Disk) (path : RawText) : IO Disk := do
  let target := (← IO.currentDir) / path.shown
  if ← target.isDir then return disk.addDirectory path
  unless ← target.pathExists do return disk
  try
    return disk.addFile path (← IO.FS.readBinFile target)
  catch error =>
    return (disk.addFile path .empty).addFault path .reading (faultOf error)

/-- Everything that is found on the way along some paths. -/
def survey (paths : List RawText) : IO Disk := do
  let home := (Path.parts (← IO.currentDir).toString).filter Path.isStep
  (paths.flatMap beginnings).foldlM look { home }

/-- Writes the file at a path if it is not what it was. -/
def store (before after : Disk) (path : RawText) : IO Unit := do
  match after.read (Path.normalize path) with
  | .error _ => pure ()
  | .ok content =>
    match before.read (Path.normalize path) with
    | .ok unchanged => unless unchanged == content do IO.FS.writeBinFile path.shown content
    | .error _ => IO.FS.writeBinFile path.shown content

end SicAssembler.Main

open SicAssembler in
def main (words : List String) : IO UInt32 := do
  let arguments : List RawText := words.map RawText.ofString
  let paths := ((Command.Arguments.scan arguments).toOption.map (·.paths)).getD []
  let out ← IO.getStdout
  let err ← IO.getStderr
  let toolkit := Command.Toolkit.standard { terminal := ← out.isTty } { terminal := ← err.isTty }
  let disk ← Main.survey paths
  match Command.run toolkit disk arguments with
  | .error failure =>
    err.putStrLn failure.text
    return 1
  | .ok outcome =>
    paths.forM (Main.store disk outcome.disk)
    out.write ⟨outcome.out.bytes.toArray⟩
    err.putStr outcome.err
    return outcome.status.code.toUInt32
