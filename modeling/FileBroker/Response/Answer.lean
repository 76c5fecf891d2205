import FileBroker.Request.Fields

/-! What a response carries for each kind, and its wire form. -/
namespace FileBroker

open LittleEndian (u32 u64)

structure FileInfo where
  attributes : UInt32
  reparseTag : UInt32
  allocationSize : UInt64
  fileSize : UInt64
  created : UInt64
  accessed : UInt64
  written : UInt64
  changed : UInt64
  index : UInt64
  deriving DecidableEq, Repr, Inhabited

namespace FileInfo

def zero : FileInfo := ⟨0, 0, 0, 0, 0, 0, 0, 0, 0⟩

def put (info : FileInfo) : Bytes :=
  u32 info.attributes ++ u32 info.reparseTag ++ u64 info.allocationSize ++ u64 info.fileSize
    ++ u64 info.created ++ u64 info.accessed ++ u64 info.written ++ u64 info.changed
    ++ u64 info.index

def reader : Reader FileInfo := do
  let attributes ← Reader.u32 "file_info.file_attributes"
  let reparseTag ← Reader.u32 "file_info.reparse_tag"
  let allocationSize ← Reader.u64 "file_info.allocation_size"
  let fileSize ← Reader.u64 "file_info.file_size"
  let created ← Reader.u64 "file_info.creation_time"
  let accessed ← Reader.u64 "file_info.last_access_time"
  let written ← Reader.u64 "file_info.last_write_time"
  let changed ← Reader.u64 "file_info.change_time"
  let index ← Reader.u64 "file_info.index_number"
  return ⟨attributes, reparseTag, allocationSize, fileSize, created, accessed, written, changed,
    index⟩

end FileInfo

structure VolumeInfo where
  totalSize : UInt64
  freeSize : UInt64
  created : UInt64
  label : Region
  deriving DecidableEq, Repr, Inhabited

namespace VolumeInfo

def zero : VolumeInfo := ⟨0, 0, 0, .empty⟩

def put (info : VolumeInfo) : Bytes :=
  u64 info.totalSize ++ u64 info.freeSize ++ u64 info.created ++ info.label.put

def reader : Reader VolumeInfo := do
  let totalSize ← Reader.u64 "volume_info.total_size"
  let freeSize ← Reader.u64 "volume_info.free_size"
  let created ← Reader.u64 "volume_info.creation_time"
  let label ← Reader.region "volume_info.label"
  return ⟨totalSize, freeSize, created, label⟩

end VolumeInfo

inductive Answer where
  | create (file : FileKey) (grantedAccess : UInt32) (info : FileInfo)
  | overwrite (info : FileInfo)
  | cleanup
  | close
  | read (data : Region)
  | write (info : FileInfo)
  | queryInformation (info : FileInfo)
  | setInformation (info : FileInfo)
  | queryEa (ea : Region)
  | setEa (info : FileInfo)
  | flushBuffers (info : FileInfo)
  | queryVolumeInformation (info : VolumeInfo)
  | setVolumeInformation (info : VolumeInfo)
  | queryDirectory (entries : Region)
  | fileSystemControl (output : Region)
  | deviceControl (output : Region)
  | shutdown
  | lockControl
  | querySecurity (descriptor : Region)
  | setSecurity
  deriving DecidableEq, Repr

namespace Answer

/-- The answer of a kind with every field zero, for responses that carry a status alone. -/
def empty : Kind → Answer
  | .create => .create .none 0 .zero
  | .overwrite => .overwrite .zero
  | .cleanup => .cleanup
  | .close => .close
  | .read => .read .empty
  | .write => .write .zero
  | .queryInformation => .queryInformation .zero
  | .setInformation => .setInformation .zero
  | .queryEa => .queryEa .empty
  | .setEa => .setEa .zero
  | .flushBuffers => .flushBuffers .zero
  | .queryVolumeInformation => .queryVolumeInformation .zero
  | .setVolumeInformation => .setVolumeInformation .zero
  | .queryDirectory => .queryDirectory .empty
  | .fileSystemControl => .fileSystemControl .empty
  | .deviceControl => .deviceControl .empty
  | .shutdown => .shutdown
  | .lockControl => .lockControl
  | .querySecurity => .querySecurity .empty
  | .setSecurity => .setSecurity

def kind : Answer → Kind
  | .create .. => .create
  | .overwrite .. => .overwrite
  | .cleanup => .cleanup
  | .close => .close
  | .read .. => .read
  | .write .. => .write
  | .queryInformation .. => .queryInformation
  | .setInformation .. => .setInformation
  | .queryEa .. => .queryEa
  | .setEa .. => .setEa
  | .flushBuffers .. => .flushBuffers
  | .queryVolumeInformation .. => .queryVolumeInformation
  | .setVolumeInformation .. => .setVolumeInformation
  | .queryDirectory .. => .queryDirectory
  | .fileSystemControl .. => .fileSystemControl
  | .deviceControl .. => .deviceControl
  | .shutdown => .shutdown
  | .lockControl => .lockControl
  | .querySecurity .. => .querySecurity
  | .setSecurity => .setSecurity

@[simp] theorem kind_empty (kind : Kind) : (empty kind).kind = kind := by cases kind <;> rfl

/-- The region of variable-length data, for the kinds that return some. -/
def dataRegion : Answer → Option Region
  | .read region | .queryEa region | .queryDirectory region | .fileSystemControl region
  | .deviceControl region | .querySecurity region => some region
  | .queryVolumeInformation info | .setVolumeInformation info => some info.label
  | _ => none

/-- At most as long as the response's field area, which is zero after the last field. -/
def put : Answer → Bytes
  | .create file grantedAccess info => file.put ++ u32 grantedAccess ++ info.put
  | .overwrite info | .write info | .queryInformation info | .setInformation info | .setEa info
  | .flushBuffers info => info.put
  | .queryVolumeInformation info | .setVolumeInformation info => info.put
  | .read region | .queryEa region | .queryDirectory region | .fileSystemControl region
  | .deviceControl region | .querySecurity region => region.put
  | .cleanup | .close | .shutdown | .lockControl | .setSecurity => []

def reader : Kind → Reader Answer
  | .create => do
    let handle ← Reader.u64 "create.user_context"
    let index ← Reader.u64 "create.user_context2"
    let grantedAccess ← Reader.u32 "create.granted_access"
    let info ← FileInfo.reader
    return .create ⟨handle, index⟩ grantedAccess info
  | .overwrite => return .overwrite (← FileInfo.reader)
  | .cleanup => return .cleanup
  | .close => return .close
  | .read => return .read (← Reader.region "read.data")
  | .write => return .write (← FileInfo.reader)
  | .queryInformation => return .queryInformation (← FileInfo.reader)
  | .setInformation => return .setInformation (← FileInfo.reader)
  | .queryEa => return .queryEa (← Reader.region "query_ea.ea")
  | .setEa => return .setEa (← FileInfo.reader)
  | .flushBuffers => return .flushBuffers (← FileInfo.reader)
  | .queryVolumeInformation => return .queryVolumeInformation (← VolumeInfo.reader)
  | .setVolumeInformation => return .setVolumeInformation (← VolumeInfo.reader)
  | .queryDirectory => return .queryDirectory (← Reader.region "query_directory.entries")
  | .fileSystemControl => return .fileSystemControl (← Reader.region "control.output")
  | .deviceControl => return .deviceControl (← Reader.region "control.output")
  | .shutdown => return .shutdown
  | .lockControl => return .lockControl
  | .querySecurity =>
    return .querySecurity (← Reader.region "query_security.security_descriptor")
  | .setSecurity => return .setSecurity

end Answer
end FileBroker
