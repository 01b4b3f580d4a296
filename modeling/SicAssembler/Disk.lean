import SicAssembler.Disk.Path
import SicAssembler.Error
import SicAssembler.OrderedMap
import SicAssembler.Text.Lines

/-!
The files that the assembler reads and writes. A `Disk` maps places to files and directories; a path
is followed part by part, from the root or from the working directory, every part but the last must be
a directory, and no part may be too long (`Disk.walk`). The system may refuse to open any file, with
a fault of its own; one that is open is read or written to its end. Files hold bytes, which are loaded
and stored under the path as it is given; programs and tables are texts in UTF-8 with any of the usual
line ends, found under the normal form of their path (`Disk.readText`).
-/

namespace SicAssembler

inductive Node where
  | directory
  | file (content : ByteArray)

/-- A place of a disk: the names that lead to it from the root. -/
abbrev Place := List RawText

/-- The place that a part of a path leads to. Above the root is the root. -/
def Place.enter (place : Place) (part : RawText) : Place :=
  if !Path.isStep part then place
  else if part == ".." then place.dropLast
  else place ++ [part]

inductive Access where
  | reading
  | writing
  deriving DecidableEq, Repr

/-- Files and directories by place, and the files that cannot be opened. The working directory and
those above it are always there. -/
structure Disk where
  home : Place := []
  nodes : OrderedMap Place Node := .empty
  faults : OrderedMap (Place × Access) FileFault := .empty

namespace Disk

def node? (disk : Disk) (place : Place) : Option Node :=
  if place.isPrefixOf disk.home then some .directory else disk.nodes.get? place

/-- Follows the parts of a path. All places on the way must be directories; the last need not
exist. -/
def walk (disk : Disk) (place : Place) : List RawText → Except FileFault Place
  | [] => .ok place
  | part :: rest =>
    match disk.node? place with
    | some .directory =>
      if Path.maxPartSize < part.size then .error .nameTooLong
      else disk.walk (place.enter part) rest
    | some (.file _) => .error .notDirectory
    | none => .error .notFound

def origin (disk : Disk) (path : RawText) : Place :=
  if Path.isAbsolute path then [] else disk.home

/-- Follows parts from where a path starts. The empty path starts nowhere. -/
def follow (disk : Disk) (path : RawText) (parts : List RawText) : Except FileFault Place :=
  if path.isEmpty then .error .notFound
  else if Path.maxSize < path.size then .error .nameTooLong
  else disk.walk (disk.origin path) parts

def locate (disk : Disk) (path : RawText) : Except FileFault Place :=
  disk.follow path (Path.parts path)

def find (disk : Disk) (path : RawText) : Except FileFault Node := do
  let place ← disk.locate path
  match disk.node? place with
  | some node => .ok node
  | none => .error .notFound

/-- What the file that a path names holds, whether it can be opened or not. -/
def stored (disk : Disk) (path : RawText) : Except FileFault ByteArray := do
  match ← disk.find path with
  | .file content => .ok content
  | .directory => .error .isDirectory

def opens (disk : Disk) (place : Place) (access : Access) : Except FileFault Unit :=
  match disk.faults.get? (place, access) with
  | some fault => .error fault
  | none => .ok ()

/-- The content of the file that a path names, if it can be opened. -/
def read (disk : Disk) (path : RawText) : Except FileFault ByteArray := do
  let content ← disk.stored path
  disk.opens (← disk.locate path) .reading
  return content

def isDenied (disk : Disk) (path : RawText) : Bool :=
  match disk.read path with
  | .error fault => fault == .denied
  | .ok _ => false

/-- The place where a file is to be written: it is in a directory that exists, is not one itself, and
can be opened. -/
def target (disk : Disk) (path : RawText) : Except FileFault Place := do
  if Path.isFolder path then
    let _ ← disk.follow path (Path.holderParts path)
    throw .isDirectory
  let place ← disk.locate path
  match disk.node? place with
  | some .directory => throw .isDirectory
  | _ =>
    disk.opens place .writing
    return place

def put (disk : Disk) (place : Place) (content : ByteArray) : Disk :=
  { disk with nodes := disk.nodes.insert place (.file content) }

def write (disk : Disk) (path : RawText) (content : ByteArray) : Except FileFault Disk := do
  let place ← disk.target path
  return disk.put place content

/-! ### Files as the assembler uses them -/

/-- The outcome of work on the file at a path. No file has a path with a NUL. -/
def attempt {α : Type} (path : RawText) (outcome : Except FileFault α) : Except Failure α :=
  if Path.hasNul path then .error .nulInPath
  else match outcome with
  | .error fault => .error (.file fault path)
  | .ok value => .ok value

def load (disk : Disk) (path : RawText) : Except Failure ByteArray :=
  attempt path (disk.read path)

def store (disk : Disk) (path : RawText) (content : ByteArray) : Except Failure Disk :=
  attempt path (disk.write path content)

/-- The text of a file, exactly as it is stored. -/
def loadText (disk : Disk) (path : RawText) : Except Failure String := do
  match Text.decode (← disk.load path) with
  | .error fault => .error (.encoding fault)
  | .ok text => .ok text

/-- The text of a program or a table: its line ends are made one. -/
def readText (disk : Disk) (path : RawText) : Except Failure String :=
  (disk.loadText (Path.normalize path)).map Text.unifyNewlines

def writeText (disk : Disk) (path : RawText) (text : String) : Except Failure Disk :=
  disk.store (Path.normalize path) text.toUTF8

/-! ### Preparing a disk -/

/-- Puts a node at a place, under directories that are made as needed. -/
def place (disk : Disk) (place : Place) (node : Node) : Disk :=
  let above := (List.range place.length).map place.take
  let missing := above.filter fun directory => (disk.node? directory).isNone
  { disk with nodes := (disk.nodes.insertAll (missing.map (·, .directory))).insert place node }

/-- The place that a path names when directories are made as needed. -/
def targetOf (disk : Disk) (path : RawText) : Place :=
  (Path.parts path).foldl Place.enter (disk.origin path)

def addDirectory (disk : Disk) (path : RawText) : Disk :=
  disk.place (disk.targetOf path) .directory

def addFile (disk : Disk) (path : RawText) (content : ByteArray) : Disk :=
  disk.place (disk.targetOf path) (.file content)

def addFault (disk : Disk) (path : RawText) (access : Access) (fault : FileFault) : Disk :=
  { disk with faults := disk.faults.insert (disk.targetOf path, access) fault }

end Disk

end SicAssembler
