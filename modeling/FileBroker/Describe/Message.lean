import FileBroker.Describe.Bytes
import FileBroker.Describe.Failure
import FileBroker.Wire.Batch

/-! Messages as structured data, with every field of every kind by name. -/
namespace FileBroker.Describe

open Data

abbrev Entries := List (String × Value)

def word16 (n : UInt16) : Value := .ofNat n.toNat
def word (n : UInt32) : Value := .ofNat n.toNat
def long (n : UInt64) : Value := .ofNat n.toNat

def region (region : Region) : Value := .list [word16 region.offset, word16 region.size]

def fileKey (file : FileKey) : Value := .list [long file.handle, long file.index]

def header (header : Header) : Value :=
  .table
    [("version", word16 header.revision), ("size", word16 header.size),
     ("kind", word header.kind), ("hint", long header.hint.value)]

/-- A header, and whether a peer of either revision takes it. -/
def readHeader (read : Header) : Value :=
  .table
    [("header", header read), ("kind", decoded (fun kind => .text kind.name) read.kind?),
     ("expect_v1", checked (read.expect .v1)), ("expect_legacy", checked (read.expect .legacy))]

/-- Where a region ends, and what it names in a message, all of which or the trailing part of which
is given. -/
def resolution (named : Region) (message : Bytes) (start : Nat) : Value :=
  .table
    [("is_empty", .bool named.isEmpty), ("end", .ofNat named.stop),
     ("check", checked (named.check message.length start)),
     ("resolve_in", decoded bytes (named.resolve message start)),
     ("resolve_in_trailing", decoded bytes (named.resolveTrailing message start))]

/-- A message as it is framed: its header and what follows its fixed part. -/
def frame (frame : Frame) : Value :=
  .table
    [("size", .ofNat frame.size), ("buffer_start", .ofNat frame.direction.fixedSize),
     ("header", header frame.header), ("trailing", bytes frame.trailing)]

/-! ### Requests -/

def changeEntries : FileChange → Entries
  | .basic attributes created accessed written changed =>
    [("class", .text "Basic"), ("file_attributes", word attributes),
     ("creation_time", long created), ("last_access_time", long accessed),
     ("last_write_time", long written), ("change_time", long changed)]
  | .rename newName replace =>
    [("class", .text "Rename"), ("new_file_name", region newName),
     ("replace_if_exists", .bool replace)]
  | .disposition delete => [("class", .text "Disposition"), ("delete", .bool delete)]
  | .allocation size => [("class", .text "Allocation"), ("allocation_size", long size)]
  | .endOfFile size advanceOnly =>
    [("class", .text "EndOfFile"), ("file_size", long size), ("advance_only", .bool advanceOnly)]

def lockName : LockAction → String
  | .lock => "Lock"
  | .unlockSingle => "UnlockSingle"
  | .unlockAll => "UnlockAll"
  | .unlockAllByKey => "UnlockAllByKey"

def openEntries (options : OpenOptions) : Entries :=
  [("create_options", word options.options), ("file_attributes", word options.attributes),
   ("security_descriptor", region options.securityDescriptor),
   ("allocation_size", long options.allocationSize), ("access_token", long options.accessToken),
   ("desired_access", word options.desiredAccess), ("share_access", word options.shareAccess),
   ("ea", region options.extendedAttributes), ("file_name", region options.fileName),
   ("user_mode", .bool options.userMode),
   ("has_traverse_privilege", .bool options.traversePrivilege),
   ("open_target_directory", .bool options.openTargetDirectory),
   ("case_sensitive", .bool options.caseSensitive)]

def controlEntries (control : Control) : Entries :=
  [("file", fileKey control.file), ("control_code", word control.code),
   ("input", region control.input), ("output_length", word control.outputLength)]

def commandEntries : Command → Entries
  | .create options => openEntries options
  | .overwrite file attributes supersede =>
    [("file", fileKey file), ("file_attributes", word attributes), ("supersede", .bool supersede)]
  | .cleanup file fileName delete =>
    [("file", fileKey file), ("file_name", region fileName), ("delete", .bool delete)]
  | .read file offset length key =>
    [("file", fileKey file), ("offset", long offset), ("length", word length), ("key", word key)]
  | .write file offset data key constrained =>
    [("file", fileKey file), ("offset", long offset), ("data", region data), ("key", word key),
     ("constrained_io", .bool constrained)]
  | .setInformation file change => ("file", fileKey file) :: changeEntries change
  | .setEa file ea => [("file", fileKey file), ("ea", region ea)]
  | .setVolumeInformation label => [("label", region label)]
  | .queryDirectory file pattern marker length restart =>
    [("file", fileKey file), ("pattern", region pattern), ("marker", region marker),
     ("length", word length), ("restart_scan", .bool restart)]
  | .fileSystemControl control | .deviceControl control => controlEntries control
  | .lockControl file action offset length key failImmediately exclusive =>
    [("file", fileKey file), ("operation", .text (lockName action)), ("offset", long offset),
     ("length", long length), ("key", word key), ("fail_immediately", .bool failImmediately),
     ("exclusive", .bool exclusive)]
  | .setSecurity file information descriptor =>
    [("file", fileKey file), ("security_information", word information),
     ("security_descriptor", region descriptor)]
  | .close file | .queryInformation file | .queryEa file | .flushBuffers file
  | .querySecurity file => [("file", fileKey file)]
  | .queryVolumeInformation | .shutdown => []

def command (command : Command) : Value :=
  .table (("kind", .text command.kind.name) :: commandEntries command)

/-- The first characters of a text. -/
def textHead (text : String) : Value :=
  .table [("ok", .text (String.ofList (text.toList.take 64)))]

def request (request : Request) : Value :=
  .table
    [("version", .text request.revision.keyword), ("hint", long request.hint.value),
     ("kind", .text request.kind.name), ("payload", command request.command),
     ("buffer", bytes request.trailing), ("encoded_len", .ofNat request.encodedSize),
     ("requested_length", .ofOption word request.command.requestedLength),
     ("regions", .list (request.command.regions.map fun named =>
       .table [("region", region named), ("bytes", decoded bytes (request.resolve named)),
         ("str", decoded textHead (request.resolveText named))]))]

/-! ### Responses -/

def fileInfo (info : FileInfo) : Value :=
  .table
    [("file_attributes", word info.attributes), ("reparse_tag", word info.reparseTag),
     ("allocation_size", long info.allocationSize), ("file_size", long info.fileSize),
     ("creation_time", long info.created), ("last_access_time", long info.accessed),
     ("last_write_time", long info.written), ("change_time", long info.changed),
     ("index_number", long info.index)]

def volumeInfo (info : VolumeInfo) : Value :=
  .table
    [("total_size", long info.totalSize), ("free_size", long info.freeSize),
     ("creation_time", long info.created), ("label", region info.label)]

def answerEntries : Answer → Entries
  | .create file access info =>
    [("file", fileKey file), ("granted_access", word access), ("file_info", fileInfo info)]
  | .overwrite info | .write info | .queryInformation info | .setInformation info | .setEa info
  | .flushBuffers info => [("file_info", fileInfo info)]
  | .read data => [("data", region data)]
  | .queryEa ea => [("ea", region ea)]
  | .queryDirectory entries => [("entries", region entries)]
  | .fileSystemControl output | .deviceControl output => [("output", region output)]
  | .querySecurity descriptor => [("security_descriptor", region descriptor)]
  | .queryVolumeInformation info | .setVolumeInformation info => [("volume_info", volumeInfo info)]
  | .cleanup | .close | .shutdown | .lockControl | .setSecurity => []

def answer (answer : Answer) : Value :=
  .table (("kind", .text answer.kind.name) :: answerEntries answer)

def response (response : Response) : Value :=
  .table
    [("version", .text response.revision.keyword), ("hint", long response.hint.value),
     ("kind", .text response.kind.name), ("status", word response.status.code),
     ("information", long response.io.information), ("payload", answer response.answer),
     ("buffer", bytes response.trailing), ("data", decoded bytes response.data),
     ("encoded_len", .ofNat response.encodedSize)]

def writtenResponse (written : Response) : Value :=
  .table [("response", response written), ("encoded", bytes written.encode)]

/-- A response as the requester sees it. -/
def answered (request : Request) (response : Response) : Value :=
  .table
    [("payload", answer response.answer), ("data", decoded bytes response.data),
     ("buffer_len", .ofNat response.trailing.length),
     ("valid", checked (response.validate request))]

def outcome : Outcome → Value := result failure fun answered => .table [("ok", response answered)]

/-! ### Batches -/

/-- The messages of a batch, each with the position after it. -/
def frames (from_ : Nat) : List Frame → List Value
  | [] => []
  | frame :: rest =>
    let next := from_ + Layout.alignUp frame.size
    .table [("size", .ofNat frame.size), ("header", header frame.header),
      ("cursor", .ofNat next)] :: frames next rest

def batch (direction : Direction) (batch : Bytes) : Entries :=
  [("messages", .list (frames 0 (Batch.frames direction batch))),
   ("cursor", .ofNat (Batch.readTo direction batch))]

end FileBroker.Describe
