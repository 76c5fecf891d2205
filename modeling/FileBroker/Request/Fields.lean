import FileBroker.Request.Command
import FileBroker.Wire.Reader

/-!
The wire form of a command: its fields in order, from the start of the request's field area.
Reading refuses unknown flag bits, unknown change classes and unknown lock actions.
-/
namespace FileBroker

open LittleEndian (u32 u64)

namespace FileKey

def put (file : FileKey) : Bytes := u64 file.handle ++ u64 file.index

def reader : Reader FileKey := do
  let handle ← Reader.u64 "file.user_context"
  let index ← Reader.u64 "file.user_context2"
  return ⟨handle, index⟩

end FileKey

namespace OpenOptions

def put (o : OpenOptions) : Bytes :=
  u32 o.options ++ u32 o.attributes ++ o.securityDescriptor.put ++ u64 o.allocationSize
    ++ u64 o.accessToken ++ u32 o.desiredAccess ++ u32 o.shareAccess ++ o.extendedAttributes.put
    ++ o.fileName.put
    ++ u32 (flagBit o.userMode 1 ||| flagBit o.traversePrivilege 2
      ||| flagBit o.openTargetDirectory 4 ||| flagBit o.caseSensitive 8)

def reader : Reader OpenOptions := do
  let options ← Reader.u32 "create.create_options"
  let attributes ← Reader.u32 "create.file_attributes"
  let securityDescriptor ← Reader.region "create.security_descriptor"
  let allocationSize ← Reader.u64 "create.allocation_size"
  let accessToken ← Reader.u64 "create.access_token"
  let desiredAccess ← Reader.u32 "create.desired_access"
  let shareAccess ← Reader.u32 "create.share_access"
  let extendedAttributes ← Reader.region "create.ea"
  let fileName ← Reader.region "create.file_name"
  let flags ← Reader.flags 15 "create.flags"
  return {
    options, attributes, securityDescriptor, allocationSize, accessToken, desiredAccess,
    shareAccess, extendedAttributes, fileName
    userMode := flags &&& 1 != 0
    traversePrivilege := flags &&& 2 != 0
    openTargetDirectory := flags &&& 4 != 0
    caseSensitive := flags &&& 8 != 0 }

end OpenOptions

namespace FileChange

def put (change : FileChange) : Bytes :=
  u32 change.number ++ match change with
  | .basic attributes created accessed written changed =>
    u32 attributes ++ u64 created ++ u64 accessed ++ u64 written ++ u64 changed
  | .rename newName replace => newName.put ++ u32 (flagBit replace 1)
  | .disposition delete => u32 (flagBit delete 1)
  | .allocation size => u64 size
  | .endOfFile size advanceOnly => u64 size ++ u32 (flagBit advanceOnly 1)

def reader : Reader FileChange := do
  let number ← Reader.u32 "set_information.class"
  if number = 4 then
    let attributes ← Reader.u32 "basic.file_attributes"
    let created ← Reader.u64 "basic.creation_time"
    let accessed ← Reader.u64 "basic.last_access_time"
    let written ← Reader.u64 "basic.last_write_time"
    let changed ← Reader.u64 "basic.change_time"
    return .basic attributes created accessed written changed
  else if number = 10 then
    let newName ← Reader.region "rename.new_file_name"
    let replace ← Reader.flag "rename.replace_if_exists"
    return .rename newName replace
  else if number = 13 then
    return .disposition (← Reader.flag "disposition.delete")
  else if number = 19 then
    return .allocation (← Reader.u64 "allocation.allocation_size")
  else if number = 20 then
    let size ← Reader.u64 "end_of_file.file_size"
    let advanceOnly ← Reader.flag "end_of_file.advance_only"
    return .endOfFile size advanceOnly
  else
    throw (.invalidPayload "set_information.class")

end FileChange

namespace LockAction

def reader : Reader LockAction := do
  match ofNumber? (← Reader.u32 "lock_control.operation") with
  | some action => return action
  | none => throw (.invalidPayload "lock_control.operation")

end LockAction

namespace Control

def put (control : Control) : Bytes :=
  control.file.put ++ u32 control.code ++ control.input.put ++ u32 control.outputLength

def reader : Reader Control := do
  let file ← FileKey.reader
  let code ← Reader.u32 "control.control_code"
  let input ← Reader.region "control.input"
  let outputLength ← Reader.u32 "control.output_length"
  return ⟨file, code, input, outputLength⟩

end Control

namespace Command

/-- At most as long as the request's field area, which is zero after the last field. -/
def put : Command → Bytes
  | .create options => options.put
  | .overwrite file attributes supersede =>
    file.put ++ u32 attributes ++ u32 (flagBit supersede 1)
  | .cleanup file fileName delete => file.put ++ fileName.put ++ u32 (flagBit delete 1)
  | .read file offset length key => file.put ++ u64 offset ++ u32 length ++ u32 key
  | .write file offset data key constrained =>
    file.put ++ u64 offset ++ data.put ++ u32 key ++ u32 (flagBit constrained 1)
  | .setInformation file change => file.put ++ change.put
  | .setEa file ea => file.put ++ ea.put
  | .setVolumeInformation label => label.put
  | .queryDirectory file pattern marker length restart =>
    file.put ++ pattern.put ++ marker.put ++ u32 length ++ u32 (flagBit restart 1)
  | .fileSystemControl control | .deviceControl control => control.put
  | .lockControl file action offset length key failImmediately exclusive =>
    file.put ++ u32 action.number
      ++ u32 (flagBit failImmediately 1 ||| flagBit exclusive 2)
      ++ u64 offset ++ u64 length ++ u32 key
  | .setSecurity file information descriptor =>
    file.put ++ u32 information ++ descriptor.put
  | .close file | .queryInformation file | .queryEa file | .flushBuffers file
  | .querySecurity file => file.put
  | .queryVolumeInformation | .shutdown => []

def reader : Kind → Reader Command
  | .create => return .create (← OpenOptions.reader)
  | .overwrite => do
    let file ← FileKey.reader
    let attributes ← Reader.u32 "overwrite.file_attributes"
    let supersede ← Reader.flag "overwrite.supersede"
    return .overwrite file attributes supersede
  | .cleanup => do
    let file ← FileKey.reader
    let fileName ← Reader.region "cleanup.file_name"
    let delete ← Reader.flag "cleanup.delete"
    return .cleanup file fileName delete
  | .close => return .close (← FileKey.reader)
  | .read => do
    let file ← FileKey.reader
    let offset ← Reader.u64 "read.offset"
    let length ← Reader.u32 "read.length"
    let key ← Reader.u32 "read.key"
    return .read file offset length key
  | .write => do
    let file ← FileKey.reader
    let offset ← Reader.u64 "write.offset"
    let data ← Reader.region "write.data"
    let key ← Reader.u32 "write.key"
    let constrained ← Reader.flag "write.constrained_io"
    return .write file offset data key constrained
  | .queryInformation => return .queryInformation (← FileKey.reader)
  | .setInformation => do
    let file ← FileKey.reader
    let change ← FileChange.reader
    return .setInformation file change
  | .queryEa => return .queryEa (← FileKey.reader)
  | .setEa => do
    let file ← FileKey.reader
    let ea ← Reader.region "set_ea.ea"
    return .setEa file ea
  | .flushBuffers => return .flushBuffers (← FileKey.reader)
  | .queryVolumeInformation => return .queryVolumeInformation
  | .setVolumeInformation =>
    return .setVolumeInformation (← Reader.region "set_volume_information.label")
  | .queryDirectory => do
    let file ← FileKey.reader
    let pattern ← Reader.region "query_directory.pattern"
    let marker ← Reader.region "query_directory.marker"
    let length ← Reader.u32 "query_directory.length"
    let restart ← Reader.flag "query_directory.restart_scan"
    return .queryDirectory file pattern marker length restart
  | .fileSystemControl => return .fileSystemControl (← Control.reader)
  | .deviceControl => return .deviceControl (← Control.reader)
  | .shutdown => return .shutdown
  | .lockControl => do
    let file ← FileKey.reader
    let action ← LockAction.reader
    let flags ← Reader.flags 3 "lock_control.flags"
    let offset ← Reader.u64 "lock_control.offset"
    let length ← Reader.u64 "lock_control.length"
    let key ← Reader.u32 "lock_control.key"
    return .lockControl file action offset length key (flags &&& 1 != 0) (flags &&& 2 != 0)
  | .querySecurity => return .querySecurity (← FileKey.reader)
  | .setSecurity => do
    let file ← FileKey.reader
    let information ← Reader.u32 "set_security.security_information"
    let descriptor ← Reader.region "set_security.security_descriptor"
    return .setSecurity file information descriptor

end Command
end FileBroker
