import FileBroker.Kind
import FileBroker.Wire.Region

/-! What a request asks for: one constructor per kind, with the fields that kind carries. -/
namespace FileBroker

/-- The two words a worker hands out to name an open file. -/
structure FileKey where
  handle : UInt64
  index : UInt64
  deriving DecidableEq, Repr, Inhabited

def FileKey.none : FileKey := ⟨0, 0⟩

structure OpenOptions where
  options : UInt32
  attributes : UInt32
  securityDescriptor : Region
  allocationSize : UInt64
  accessToken : UInt64
  desiredAccess : UInt32
  shareAccess : UInt32
  extendedAttributes : Region
  fileName : Region
  userMode : Bool
  traversePrivilege : Bool
  openTargetDirectory : Bool
  caseSensitive : Bool
  deriving DecidableEq, Repr, Inhabited

/-- One class of file information to change. -/
inductive FileChange where
  | basic (attributes : UInt32) (created accessed written changed : UInt64)
  | rename (newName : Region) (replace : Bool)
  | disposition (delete : Bool)
  | allocation (size : UInt64)
  | endOfFile (size : UInt64) (advanceOnly : Bool)
  deriving DecidableEq, Repr

def FileChange.number : FileChange → UInt32
  | .basic .. => 4
  | .rename .. => 10
  | .disposition .. => 13
  | .allocation .. => 19
  | .endOfFile .. => 20

inductive LockAction where
  | lock | unlockSingle | unlockAll | unlockAllByKey
  deriving DecidableEq, Repr

namespace LockAction

def all : List LockAction := [.lock, .unlockSingle, .unlockAll, .unlockAllByKey]

def number : LockAction → UInt32
  | .lock => 1
  | .unlockSingle => 2
  | .unlockAll => 3
  | .unlockAllByKey => 4

def ofNumber? (n : UInt32) : Option LockAction := all.find? fun action => action.number == n

theorem ofNumber?_number (action : LockAction) : ofNumber? action.number = some action := by
  cases action <;> decide

end LockAction

/-- Shared by file-system and device controls. -/
structure Control where
  file : FileKey
  code : UInt32
  input : Region
  outputLength : UInt32
  deriving DecidableEq, Repr

inductive Command where
  | create (options : OpenOptions)
  | overwrite (file : FileKey) (attributes : UInt32) (supersede : Bool)
  | cleanup (file : FileKey) (fileName : Region) (delete : Bool)
  | close (file : FileKey)
  | read (file : FileKey) (offset : UInt64) (length key : UInt32)
  | write (file : FileKey) (offset : UInt64) (data : Region) (key : UInt32) (constrained : Bool)
  | queryInformation (file : FileKey)
  | setInformation (file : FileKey) (change : FileChange)
  | queryEa (file : FileKey)
  | setEa (file : FileKey) (ea : Region)
  | flushBuffers (file : FileKey)
  | queryVolumeInformation
  | setVolumeInformation (label : Region)
  | queryDirectory (file : FileKey) (pattern marker : Region) (length : UInt32) (restart : Bool)
  | fileSystemControl (control : Control)
  | deviceControl (control : Control)
  | shutdown
  | lockControl (file : FileKey) (action : LockAction) (offset length : UInt64) (key : UInt32)
      (failImmediately exclusive : Bool)
  | querySecurity (file : FileKey)
  | setSecurity (file : FileKey) (information : UInt32) (descriptor : Region)
  deriving DecidableEq, Repr

namespace Command

def kind : Command → Kind
  | .create .. => .create
  | .overwrite .. => .overwrite
  | .cleanup .. => .cleanup
  | .close .. => .close
  | .read .. => .read
  | .write .. => .write
  | .queryInformation .. => .queryInformation
  | .setInformation .. => .setInformation
  | .queryEa .. => .queryEa
  | .setEa .. => .setEa
  | .flushBuffers .. => .flushBuffers
  | .queryVolumeInformation => .queryVolumeInformation
  | .setVolumeInformation .. => .setVolumeInformation
  | .queryDirectory .. => .queryDirectory
  | .fileSystemControl .. => .fileSystemControl
  | .deviceControl .. => .deviceControl
  | .shutdown => .shutdown
  | .lockControl .. => .lockControl
  | .querySecurity .. => .querySecurity
  | .setSecurity .. => .setSecurity

/-- Every region the command names, in the order of its fields. -/
def regions : Command → List Region
  | .create options => [options.securityDescriptor, options.extendedAttributes, options.fileName]
  | .cleanup _ fileName _ => [fileName]
  | .write _ _ data _ _ => [data]
  | .setInformation _ (.rename newName _) => [newName]
  | .setEa _ ea => [ea]
  | .setVolumeInformation label => [label]
  | .queryDirectory _ pattern marker _ _ => [pattern, marker]
  | .fileSystemControl control | .deviceControl control => [control.input]
  | .setSecurity _ _ descriptor => [descriptor]
  | _ => []

/-- The most data a worker may return, for the kinds that set a bound. -/
def requestedLength : Command → Option UInt32
  | .read _ _ length _ | .queryDirectory _ _ _ length _ => some length
  | .fileSystemControl control | .deviceControl control => some control.outputLength
  | _ => none

end Command
end FileBroker
