/-! The closed set of file-system operations, their wire numbers and how each is admitted. -/
namespace FileBroker

inductive Kind where
  | create | overwrite | cleanup | close | read | write
  | queryInformation | setInformation | queryEa | setEa | flushBuffers
  | queryVolumeInformation | setVolumeInformation | queryDirectory
  | fileSystemControl | deviceControl | shutdown | lockControl
  | querySecurity | setSecurity
  deriving DecidableEq, Repr, Inhabited

namespace Kind

/-- Every kind, in the order of its wire number. -/
def all : List Kind :=
  [.create, .overwrite, .cleanup, .close, .read, .write, .queryInformation, .setInformation,
   .queryEa, .setEa, .flushBuffers, .queryVolumeInformation, .setVolumeInformation,
   .queryDirectory, .fileSystemControl, .deviceControl, .shutdown, .lockControl,
   .querySecurity, .setSecurity]

/-- Numbers run from 1; 0 is reserved and never names a kind. -/
def number : Kind → UInt32
  | .create => 1 | .overwrite => 2 | .cleanup => 3 | .close => 4 | .read => 5 | .write => 6
  | .queryInformation => 7 | .setInformation => 8 | .queryEa => 9 | .setEa => 10
  | .flushBuffers => 11 | .queryVolumeInformation => 12 | .setVolumeInformation => 13
  | .queryDirectory => 14 | .fileSystemControl => 15 | .deviceControl => 16 | .shutdown => 17
  | .lockControl => 18 | .querySecurity => 19 | .setSecurity => 20

def ofNumber? (n : UInt32) : Option Kind := all.find? fun kind => kind.number == n

def name : Kind → String
  | .create => "Create" | .overwrite => "Overwrite" | .cleanup => "Cleanup" | .close => "Close"
  | .read => "Read" | .write => "Write" | .queryInformation => "QueryInformation"
  | .setInformation => "SetInformation" | .queryEa => "QueryEa" | .setEa => "SetEa"
  | .flushBuffers => "FlushBuffers" | .queryVolumeInformation => "QueryVolumeInformation"
  | .setVolumeInformation => "SetVolumeInformation" | .queryDirectory => "QueryDirectory"
  | .fileSystemControl => "FileSystemControl" | .deviceControl => "DeviceControl"
  | .shutdown => "Shutdown" | .lockControl => "LockControl" | .querySecurity => "QuerySecurity"
  | .setSecurity => "SetSecurity"

def ofName? (text : String) : Option Kind := all.find? fun kind => kind.name == text

theorem mem_all (kind : Kind) : kind ∈ all := by cases kind <;> decide

theorem ofNumber?_number (kind : Kind) : ofNumber? kind.number = some kind := by
  cases kind <;> decide

theorem number_of_ofNumber? {n : UInt32} {kind : Kind} (h : ofNumber? n = some kind) :
    kind.number = n := by
  simpa using List.find?_some h

end Kind

/-- How an operation enters the pending queue. -/
inductive Admission where
  /-- Refused while the pending queue is at capacity. -/
  | capacityLimited
  /-- Ignores the capacity and never expires: the caller needs it to release its own state. -/
  | bestEffort
  deriving DecidableEq, Repr

namespace Admission

def all : List Admission := [.capacityLimited, .bestEffort]

def name : Admission → String
  | .capacityLimited => "CapacityLimited"
  | .bestEffort => "BestEffort"

end Admission

/-- Only the two operations that end a file's use are best-effort. -/
def Kind.admission : Kind → Admission
  | .cleanup | .close => .bestEffort
  | _ => .capacityLimited

theorem Kind.admission_eq_bestEffort_iff (kind : Kind) :
    kind.admission = .bestEffort ↔ kind = .cleanup ∨ kind = .close := by
  cases kind <;> decide

end FileBroker
