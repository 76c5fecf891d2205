import FileBroker.Data.Fields
import FileBroker.Failure
import FileBroker.Response.Answer

/-!
Commands, answers and failures from structured data. Regions may be given by the position of the
appended bytes they name; whatever is missing is zero.
-/
namespace FileBroker.Compose

open Data

/-- A pair of numbers, or the position of an append. -/
def region (appended : List Region) (value : Value) : Region :=
  match value with
  | .list [offset, size] => ⟨UInt16.ofNat offset.toNat, UInt16.ofNat size.toNat⟩
  | value => if value.has "a" then appended.getD (value.nat "a") .empty else .empty

def fileKey : Value → FileKey
  | .list [handle, index] => ⟨UInt64.ofNat handle.toNat, UInt64.ofNat index.toNat⟩
  | _ => .none

def kind (value : Value) (key : String) : Kind := (Kind.ofName? (value.string key)).getD .create

def lockAction : String → LockAction
  | "UnlockSingle" => .unlockSingle
  | "UnlockAll" => .unlockAll
  | "UnlockAllByKey" => .unlockAllByKey
  | _ => .lock

def fileChange (appended : List Region) (value : Value) : FileChange :=
  match value.string "class" with
  | "Basic" =>
    .basic (value.u32 "file_attributes") (value.u64 "creation_time") (value.u64 "last_access_time")
      (value.u64 "last_write_time") (value.u64 "change_time")
  | "Rename" =>
    .rename (region appended (value.entry "new_file_name")) (value.flag "replace_if_exists")
  | "Disposition" => .disposition (value.flag "delete")
  | "Allocation" => .allocation (value.u64 "allocation_size")
  | _ => .endOfFile (value.u64 "file_size") (value.flag "advance_only")

def command (appended : List Region) (value : Value) : Command :=
  let named := fun key => region appended (value.entry key)
  let file := fileKey (value.entry "file")
  let control : Control :=
    ⟨file, value.u32 "control_code", named "input", value.u32 "output_length"⟩
  match kind value "kind" with
  | .create =>
    .create
      ⟨value.u32 "create_options", value.u32 "file_attributes", named "security_descriptor",
       value.u64 "allocation_size", value.u64 "access_token", value.u32 "desired_access",
       value.u32 "share_access", named "ea", named "file_name", value.flag "user_mode",
       value.flag "has_traverse_privilege", value.flag "open_target_directory",
       value.flag "case_sensitive"⟩
  | .overwrite => .overwrite file (value.u32 "file_attributes") (value.flag "supersede")
  | .cleanup => .cleanup file (named "file_name") (value.flag "delete")
  | .close => .close file
  | .read => .read file (value.u64 "offset") (value.u32 "length") (value.u32 "key")
  | .write =>
    .write file (value.u64 "offset") (named "data") (value.u32 "key") (value.flag "constrained_io")
  | .queryInformation => .queryInformation file
  | .setInformation => .setInformation file (fileChange appended value)
  | .queryEa => .queryEa file
  | .setEa => .setEa file (named "ea")
  | .flushBuffers => .flushBuffers file
  | .queryVolumeInformation => .queryVolumeInformation
  | .setVolumeInformation => .setVolumeInformation (named "label")
  | .queryDirectory =>
    .queryDirectory file (named "pattern") (named "marker") (value.u32 "length")
      (value.flag "restart_scan")
  | .fileSystemControl => .fileSystemControl control
  | .deviceControl => .deviceControl control
  | .shutdown => .shutdown
  | .lockControl =>
    .lockControl file (lockAction (value.string "operation")) (value.u64 "offset")
      (value.u64 "length") (value.u32 "key") (value.flag "fail_immediately")
      (value.flag "exclusive")
  | .querySecurity => .querySecurity file
  | .setSecurity =>
    .setSecurity file (value.u32 "security_information") (named "security_descriptor")

def fileInfo (value : Value) : FileInfo :=
  ⟨value.u32 "file_attributes", value.u32 "reparse_tag", value.u64 "allocation_size",
   value.u64 "file_size", value.u64 "creation_time", value.u64 "last_access_time",
   value.u64 "last_write_time", value.u64 "change_time", value.u64 "index_number"⟩

def volumeInfo (appended : List Region) (value : Value) : VolumeInfo :=
  ⟨value.u64 "total_size", value.u64 "free_size", value.u64 "creation_time",
   region appended (value.entry "label")⟩

def answer (appended : List Region) (value : Value) : Answer :=
  let named := fun key => region appended (value.entry key)
  let info := fileInfo (value.entry "file_info")
  let volume := volumeInfo appended (value.entry "volume_info")
  match kind value "kind" with
  | .create => .create (fileKey (value.entry "file")) (value.u32 "granted_access") info
  | .overwrite => .overwrite info
  | .cleanup => .cleanup
  | .close => .close
  | .read => .read (named "data")
  | .write => .write info
  | .queryInformation => .queryInformation info
  | .setInformation => .setInformation info
  | .queryEa => .queryEa (named "ea")
  | .setEa => .setEa info
  | .flushBuffers => .flushBuffers info
  | .queryVolumeInformation => .queryVolumeInformation volume
  | .setVolumeInformation => .setVolumeInformation volume
  | .queryDirectory => .queryDirectory (named "entries")
  | .fileSystemControl => .fileSystemControl (named "output")
  | .deviceControl => .deviceControl (named "output")
  | .shutdown => .shutdown
  | .lockControl => .lockControl
  | .querySecurity => .querySecurity (named "security_descriptor")
  | .setSecurity => .setSecurity

def failure (value : Value) : Failure :=
  match value.string "error" with
  | "InsufficientResources" => .queueFull
  | "Expired" => .expired
  | "ProtocolError" => .protocolViolation (value.string "reason")
  | "OperationFailed" => .refused ⟨value.u32 "status"⟩ (value.u64 "information")
  | _ => .cancelled

end FileBroker.Compose
