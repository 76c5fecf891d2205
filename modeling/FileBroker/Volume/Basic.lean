import FileBroker.Word
import FileBroker.Worker.Desk

/-!
A flat volume that is kept in memory: files by name, and handles that name the file they were
opened on. Directories are not modelled, and names are told apart by case. Sizes are 64-bit words;
a request whose arithmetic leaves them is a fault.
-/
namespace FileBroker

/-! ### Files -/

/-- The contents of one file. Times are in ticks of 100 nanoseconds. -/
structure FileNode where
  index : Nat
  data : Bytes
  created : UInt64
  modified : UInt64
  /-- The file is to go when a handle to it is cleaned up. -/
  deletePending : Bool
  deriving DecidableEq, Repr

namespace FileNode

def normalAttributes : UInt32 := 0x80

/-- Space is handed out in whole blocks. -/
def blockSize : Nat := 4096

def size (node : FileNode) : Nat := node.data.length

def info (node : FileNode) : FileInfo where
  attributes := normalAttributes
  reparseTag := 0
  allocationSize := UInt64.ofNat ((node.size + (blockSize - 1)) / blockSize * blockSize)
  fileSize := UInt64.ofNat node.size
  created := node.created
  accessed := node.modified
  written := node.modified
  changed := node.modified
  index := UInt64.ofNat node.index

/-- Longest file that can be held. -/
def longest : Nat := Word.signedLimit - 1

/-- Cuts off what is beyond a size, or fills up to it with zeros. -/
def resize? (node : FileNode) (size : Nat) : Option FileNode :=
  if size ≤ longest then
    let data :=
      if size ≤ node.size then node.data.take size
      else node.data ++ List.replicate (size - node.size) 0
    some { node with data }
  else none

end FileNode

structure Volume where
  label : String
  size : Nat
  created : UInt64
  files : List (String × FileNode)
  handles : List (Nat × String)
  lastHandle : Nat
  lastIndex : Nat
  /-- Bytes in all files. -/
  used : Nat
  deriving DecidableEq, Repr

namespace Volume

def new (label : String) (size : Nat) (created : UInt64) : Volume :=
  ⟨label, size, created, [], [], 0, 0, 0⟩

def file? (volume : Volume) (name : String) : Option FileNode := volume.files.lookup name

/-- Replaces the contents of a file that is there. -/
def setFile (volume : Volume) (name : String) (node : FileNode) : Volume :=
  { volume with
    files := volume.files.map fun entry => if entry.1 == name then (name, node) else entry }

def nameOf? (volume : Volume) (file : FileKey) : Option String :=
  volume.handles.lookup file.handle.toNat

/-- What a request on the volume comes to: a count, or a status that refuses it, and what has become
of its draft by then. -/
abbrev Result := Except (Status × Response.Draft) (UInt64 × Response.Draft)

/-- A step either faults or leaves a result and the volume after it. -/
abbrev Step := Option (Result × Volume)

def refuse (volume : Volume) (draft : Response.Draft) (status : Status) : Step :=
  some (.error (status, draft), volume)

/-- Completes a draft with an answer. -/
def answered (draft : Response.Draft) (information : Nat) (answer : Answer) : Result :=
  match draft.setAnswer answer with
  | .ok draft => .ok (UInt64.ofNat information, draft)
  | .error _ => .error (.internalError, draft)

/-- Finds the file behind an open handle. -/
def node? (volume : Volume) (file : FileKey) : Except Status (String × FileNode) :=
  match volume.nameOf? file with
  | none => .error .invalidParameter
  | some name =>
    match volume.file? name with
    | none => .error .objectNameNotFound
    | some node => .ok (name, node)

/-! ### Opening -/

/-- What an open does about a file that is there, or is not. -/
inductive Disposition where
  | supersede | openExisting | create | openOrCreate | overwrite | overwriteOrCreate
  deriving DecidableEq, Repr

namespace Disposition

/-- The top byte of the open options. -/
def ofOptions? (options : UInt32) : Option Disposition :=
  match (options >>> 24).toNat with
  | 0 => some .supersede
  | 1 => some .openExisting
  | 2 => some .create
  | 3 => some .openOrCreate
  | 4 => some .overwrite
  | 5 => some .overwriteOrCreate
  | _ => none

def toOptions : Disposition → UInt32
  | .supersede => 0
  | .openExisting => 0x01000000
  | .create => 0x02000000
  | .openOrCreate => 0x03000000
  | .overwrite => 0x04000000
  | .overwriteOrCreate => 0x05000000

/-- Whether an existing file is emptied. -/
def truncates : Disposition → Bool
  | .supersede | .overwrite | .overwriteOrCreate => true
  | _ => false

/-- Why the open is refused, if it is. -/
def refusal (disposition : Disposition) (exists_ : Bool) : Option Status :=
  match disposition, exists_ with
  | .create, true => some .objectNameCollision
  | .openExisting, false | .overwrite, false => some .objectNameNotFound
  | _, _ => none

end Disposition

/-- The file an open reaches: a new one, or the existing one, emptied if the disposition says so. -/
def reach (volume : Volume) (now : UInt64) (name : String) (disposition : Disposition) :
    Option (FileNode × Volume) :=
  match volume.file? name with
  | none => do
    let index ← Word.add? volume.lastIndex 1
    let node : FileNode := ⟨index, [], now, now, false⟩
    return (node, { volume with lastIndex := index, files := volume.files ++ [(name, node)] })
  | some node =>
    if disposition.truncates then do
      let used ← Word.sub? volume.used node.size
      let node := { node with data := [], modified := now }
      return (node, { volume.setFile name node with used })
    else some (node, volume)

def create (volume : Volume) (now : UInt64) (request : Request) (options : OpenOptions)
    (draft : Response.Draft) : Step :=
  match request.resolveText options.fileName, Disposition.ofOptions? options.options with
  | .error _, _ | .ok _, none => volume.refuse draft .invalidParameter
  | .ok name, some disposition =>
    match disposition.refusal (volume.file? name).isSome with
    | some status => volume.refuse draft status
    | none => do
      let (node, volume) ← volume.reach now name disposition
      let handle ← Word.add? volume.lastHandle 1
      let key : FileKey := ⟨UInt64.ofNat handle, UInt64.ofNat node.index⟩
      return (answered draft 0 (.create key options.desiredAccess node.info),
        { volume with lastHandle := handle, handles := volume.handles ++ [(handle, name)] })

/-! ### Reading and writing -/

/-- Reads up to the end of the file, or up to `length` bytes. -/
def read (volume : Volume) (file : FileKey) (offset length : Nat) (draft : Response.Draft) :
    Step :=
  match volume.node? file with
  | .error status => volume.refuse draft status
  | .ok (_, node) =>
    if node.size ≤ offset then volume.refuse draft .endOfFile
    else do
      let stop ← Word.add? offset length
      let chunk := (node.data.drop offset).take (min node.size stop - offset)
      match draft.append chunk with
      | .error _ => volume.refuse draft .bufferTooSmall
      | .ok (region, draft) =>
        return (answered draft chunk.length (.read region), volume)

/-- Writes at any offset; a gap before it is filled with zeros. -/
def write (volume : Volume) (now : UInt64) (file : FileKey) (offset : Nat) (bytes : Bytes)
    (draft : Response.Draft) : Step :=
  match volume.node? file with
  | .error status => volume.refuse draft status
  | .ok (name, node) =>
    match Word.add? offset bytes.length with
    | none => volume.refuse draft .invalidParameter
    | some stop => do
      let used ← Word.add? volume.used (stop - node.size)
      if volume.size < used then volume.refuse draft .insufficientResources
      else
        let grown ← node.resize? (max stop node.size)
        let node :=
          { grown with data := Bytes.overwrite grown.data offset bytes, modified := now }
        return (answered draft bytes.length (.write node.info),
          { volume.setFile name node with used })

/-! ### File information -/

/-- Whether a change of size leaves room on the volume; none if that cannot be told. -/
def hasRoom? (volume : Volume) (old size : Nat) : Option Bool :=
  if old < size then (Word.add? volume.used (size - old)).map fun used => used ≤ volume.size
  else some true

def setEnd (volume : Volume) (now : UInt64) (name : String) (node : FileNode) (size : Nat)
    (draft : Response.Draft) : Step := do
  if ← volume.hasRoom? node.size size then
    let total ← Word.add? volume.used size
    let resized ← node.resize? size
    let changed := { resized with modified := now }
    return (answered draft 0 (.setInformation changed.info),
      { volume.setFile name changed with used := total - node.size })
  else volume.refuse draft .insufficientResources

def setInformation (volume : Volume) (now : UInt64) (file : FileKey) (change : FileChange)
    (draft : Response.Draft) : Step :=
  match volume.node? file with
  | .error status => volume.refuse draft status
  | .ok (name, node) =>
    let changed := fun (node : FileNode) =>
      let node := { node with modified := now }
      some (answered draft 0 (.setInformation node.info), volume.setFile name node)
    match change with
    | .endOfFile size _ => volume.setEnd now name node size.toNat draft
    | .disposition delete => changed { node with deletePending := delete }
    | .basic _ _ _ _ _ | .allocation _ => changed node
    | .rename _ _ => volume.refuse draft .notImplemented

/-- Reports on a file without touching it. -/
def queried (volume : Volume) (file : FileKey) (draft : Response.Draft)
    (answer : FileInfo → Answer) : Step :=
  match volume.node? file with
  | .error status => volume.refuse draft status
  | .ok (_, node) => some (answered draft 0 (answer node.info), volume)

def volumeInfo (volume : Volume) (draft : Response.Draft) : Step :=
  match draft.append volume.label.toUTF8.toList with
  | .error _ => volume.refuse draft .bufferOverflow
  | .ok (region, draft) =>
    let info : VolumeInfo :=
      ⟨UInt64.ofNat volume.size, UInt64.ofNat (volume.size - volume.used), volume.created, region⟩
    some (answered draft 0 (.queryVolumeInformation info), volume)

/-! ### Closing -/

/-- The last use of a file through a handle; the file goes if that was asked for, now or before. -/
def cleanup (volume : Volume) (file : FileKey) (delete : Bool) : Option Volume :=
  match volume.nameOf? file with
  | none => some volume
  | some name =>
    match volume.file? name with
    | none => some volume
    | some node =>
      if delete || node.deletePending then do
        let used ← Word.sub? volume.used node.size
        return { volume with used, files := volume.files.filter fun entry => entry.1 != name }
      else some volume

def close (volume : Volume) (file : FileKey) : Volume :=
  { volume with handles := volume.handles.filter fun entry => entry.1 != file.handle.toNat }

/-! ### Serving requests -/

def step (volume : Volume) (now : UInt64) (request : Request) (draft : Response.Draft) : Step :=
  let plain : Result := .ok (0, draft)
  match request.command with
  | .create options => volume.create now request options draft
  | .read file offset length _ => volume.read file offset.toNat length.toNat draft
  | .write file offset data _ _ =>
    match request.resolve data with
    | .ok bytes => volume.write now file offset.toNat bytes draft
    | .error _ => volume.refuse draft .invalidParameter
  | .queryInformation file => volume.queried file draft .queryInformation
  | .flushBuffers file => volume.queried file draft .flushBuffers
  | .setInformation file change => volume.setInformation now file change draft
  | .cleanup file _ delete => (volume.cleanup file delete).map fun volume => (plain, volume)
  | .close file => some (plain, volume.close file)
  | .queryVolumeInformation => volume.volumeInfo draft
  | .shutdown => some (plain, volume)
  | _ => volume.refuse draft .invalidDeviceRequest

/-- The volume as a handler. -/
def handle (now : UInt64) : Handler Volume := fun volume request draft =>
  match volume.step now request draft with
  | none => (.crashed, volume)
  | some (.ok (information, draft), volume) => (.complete .success information draft, volume)
  | some (.error (status, draft), volume) => (.complete status 0 draft, volume)

end Volume
end FileBroker
