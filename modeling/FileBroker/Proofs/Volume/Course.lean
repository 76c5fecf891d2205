import FileBroker.Proofs.Volume.Files

/-!
The course of a request on a volume: all that can come of it, unless it faults, and the response
that is sent. A refused request leaves the volume as it was and is answered with its status alone.
A request on an open file is granted out of that file, whatever else the volume holds.
-/
namespace FileBroker

/-- The open file that a request reads, reports on or changes. -/
def Command.usedFile : Command → Option FileKey
  | .read file .. | .write file .. | .queryInformation file | .flushBuffers file
  | .setInformation file _ => some file
  | _ => none

/-- A success without data. -/
def Request.granted (request : Request) (information : Nat) (answer : Answer) : Response :=
  ⟨request.revision, request.hint, ⟨.success, UInt64.ofNat information⟩, answer, []⟩

/-- A refusal, which carries its status alone. -/
def Request.refused (request : Request) (status : Status) : Response :=
  .ofStatus request.revision request.hint request.kind status

/-! ### Files -/

namespace FileNode

/-- What a request learns from a file, if it is granted. -/
inductive Tells (request : Request) (node : FileNode) : Response → Prop where
  | read {file : FileKey} {offset : UInt64} {length key : UInt32}
      (command : request.command = .read file offset length key)
      (inside : offset.toNat < node.size)
      (fits : Response.fixedSize + ((node.data.drop offset.toNat).take length.toNat).length
        ≤ request.revision.messageLimit) :
      Tells request node
        (Volume.readResponse request ((node.data.drop offset.toNat).take length.toNat))
  | queryInformation {file : FileKey} (command : request.command = .queryInformation file) :
      Tells request node (request.granted 0 (.queryInformation node.info))
  | flushBuffers {file : FileKey} (command : request.command = .flushBuffers file) :
      Tells request node (request.granted 0 (.flushBuffers node.info))

/-- A file is filled up to where the bytes are to end, if it does not reach so far. -/
def written (node : FileNode) (now : UInt64) (offset : Nat) (bytes : Bytes) : FileNode :=
  { node with
    data := Bytes.overwrite
      (node.data ++ List.replicate (offset + bytes.length - node.size) 0) offset bytes
    modified := now }

/-- A file is cut off at its new end, or filled up to it. -/
def ended (node : FileNode) (now : UInt64) (size : Nat) : FileNode :=
  { node with
    data := node.data.take size ++ List.replicate (size - node.size) 0
    modified := now }

/-- What a request makes of a file, and is told about it, if it is granted. -/
inductive Takes (now : UInt64) (request : Request) (node : FileNode) :
    Response → FileNode → Prop where
  | write {file : FileKey} {offset : UInt64} {data : Region} {key : UInt32} {constrained : Bool}
      {bytes : Bytes} (command : request.command = .write file offset data key constrained)
      (resolved : request.resolve data = .ok bytes)
      (within : offset.toNat + bytes.length < Word.limit) :
      Takes now request node
        (request.granted bytes.length (.write (node.written now offset.toNat bytes).info))
        (node.written now offset.toNat bytes)
  | endOfFile {file : FileKey} {size : UInt64} {advanceOnly : Bool}
      (command : request.command = .setInformation file (.endOfFile size advanceOnly)) :
      Takes now request node
        (request.granted 0 (.setInformation (node.ended now size.toNat).info))
        (node.ended now size.toNat)
  | disposition {file : FileKey} {delete : Bool}
      (command : request.command = .setInformation file (.disposition delete)) :
      Takes now request node
        (request.granted 0 (.setInformation { node with modified := now }.info))
        { node with deletePending := delete, modified := now }
  | basic {file : FileKey} {attributes : UInt32} {created accessed written changed : UInt64}
      (command : request.command
        = .setInformation file (.basic attributes created accessed written changed)) :
      Takes now request node
        (request.granted 0 (.setInformation { node with modified := now }.info))
        { node with modified := now }
  | allocation {file : FileKey} {size : UInt64}
      (command : request.command = .setInformation file (.allocation size)) :
      Takes now request node
        (request.granted 0 (.setInformation { node with modified := now }.info))
        { node with modified := now }

/-- A size that was set is reached by cutting or by filling, and no other way. -/
theorem resize?_eq_some {node resized : FileNode} {size : Nat}
    (done : node.resize? size = some resized) :
    resized
      = { node with data := node.data.take size ++ List.replicate (size - node.size) 0 } := by
  unfold resize? at done
  split at done
  · cases done
    congr 1
    split
    · next cut => simp [Nat.sub_eq_zero_of_le cut]
    · next filled =>
      have whole : node.data.length ≤ size := Nat.le_of_not_le filled
      rw [List.take_of_length_le whole]
  · cases done

end FileNode

namespace Volume

variable {volume after : Volume} {now : UInt64} {request : Request} {response : Response}
  {status : Status}

/-! ### Refusals and grants -/

/-- Why a request is refused. -/
inductive Refuses (volume : Volume) (request : Request) : Status → Prop where
  | unreadable {options : OpenOptions} {error : FormatError}
      (command : request.command = .create options)
      (failed : request.resolveText options.fileName = .error error) :
      Refuses volume request .invalidParameter
  | undefined {options : OpenOptions} {name : String} (command : request.command = .create options)
      (named : request.resolveText options.fileName = .ok name)
      (unknown : Disposition.ofOptions? options.options = none) :
      Refuses volume request .invalidParameter
  | disallowed {options : OpenOptions} {name : String} {disposition : Disposition} {status : Status}
      (command : request.command = .create options)
      (named : request.resolveText options.fileName = .ok name)
      (known : Disposition.ofOptions? options.options = some disposition)
      (refusal : disposition.refusal (volume.file? name).isSome = some status) :
      Refuses volume request status
  | unopened {file : FileKey} {status : Status} (used : request.command.usedFile = some file)
      (missing : volume.node? file = .error status)
      (resolved : ∀ file offset data key constrained,
        request.command = .write file offset data key constrained →
        ∃ bytes, request.resolve data = .ok bytes) :
      Refuses volume request status
  | pastEnd {file : FileKey} {offset : UInt64} {length key : UInt32} {name : String}
      {node : FileNode} (command : request.command = .read file offset length key)
      (held : volume.node? file = .ok (name, node)) (past : node.size ≤ offset.toNat) :
      Refuses volume request .endOfFile
  | tooLong {file : FileKey} {offset : UInt64} {length key : UInt32} {name : String}
      {node : FileNode} (command : request.command = .read file offset length key)
      (held : volume.node? file = .ok (name, node)) (inside : offset.toNat < node.size)
      (long : request.revision.messageLimit
        < Response.fixedSize + ((node.data.drop offset.toNat).take length.toNat).length) :
      Refuses volume request .bufferTooSmall
  | unresolved {file : FileKey} {offset : UInt64} {data : Region} {key : UInt32}
      {constrained : Bool} {error : FormatError}
      (command : request.command = .write file offset data key constrained)
      (failed : request.resolve data = .error error) : Refuses volume request .invalidParameter
  | tooFar {file : FileKey} {offset : UInt64} {data : Region} {key : UInt32}
      {constrained : Bool} {bytes : Bytes} {name : String} {node : FileNode}
      (command : request.command = .write file offset data key constrained)
      (resolved : request.resolve data = .ok bytes) (held : volume.node? file = .ok (name, node))
      (far : Word.limit ≤ offset.toNat + bytes.length) : Refuses volume request .invalidParameter
  | noRoomToWrite {file : FileKey} {offset : UInt64} {data : Region} {key : UInt32}
      {constrained : Bool} {bytes : Bytes} {name : String} {node : FileNode}
      (command : request.command = .write file offset data key constrained)
      (resolved : request.resolve data = .ok bytes) (held : volume.node? file = .ok (name, node))
      (within : offset.toNat + bytes.length < Word.limit) :
      Refuses volume request .insufficientResources
  | noRoomToGrow {file : FileKey} {size : UInt64} {advanceOnly : Bool} {name : String}
      {node : FileNode}
      (command : request.command = .setInformation file (.endOfFile size advanceOnly))
      (held : volume.node? file = .ok (name, node)) :
      Refuses volume request .insufficientResources
  | rename {file : FileKey} {newName : Region} {replace : Bool} {name : String} {node : FileNode}
      (command : request.command = .setInformation file (.rename newName replace))
      (held : volume.node? file = .ok (name, node)) : Refuses volume request .notImplemented
  | longLabel (command : request.command = .queryVolumeInformation) :
      Refuses volume request .bufferOverflow
  | unserved (kind : request.kind ∈ [.overwrite, .queryEa, .setEa, .setVolumeInformation,
        .queryDirectory, .fileSystemControl, .deviceControl, .lockControl, .querySecurity,
        .setSecurity]) : Refuses volume request .invalidDeviceRequest

/-- What is said about a volume whose label has room in a response. -/
def infoResponse (volume : Volume) (request : Request) : Response where
  revision := request.revision
  hint := request.hint
  io := ⟨.success, 0⟩
  answer := .queryVolumeInformation
    ⟨UInt64.ofNat volume.size, UInt64.ofNat (volume.size - volume.used), volume.created,
      ⟨UInt16.ofNat Response.fixedSize, UInt16.ofNat volume.label.toUTF8.toList.length⟩⟩
  trailing := volume.label.toUTF8.toList

/-- What a request that is granted is answered with, and makes of the volume. -/
inductive Fulfils (volume : Volume) (now : UInt64) (request : Request) :
    Response → Volume → Prop where
  | opened {options : OpenOptions} {name : String} {disposition : Disposition} {node : FileNode}
      {reached : Volume} (command : request.command = .create options)
      (named : request.resolveText options.fileName = .ok name)
      (known : Disposition.ofOptions? options.options = some disposition)
      (allowed : disposition.refusal (volume.file? name).isSome = none)
      (found : volume.reach now name disposition = some (node, reached))
      (fresh : reached.lastHandle + 1 < Word.limit) :
      Fulfils volume now request
        (request.granted 0 (.create ⟨UInt64.ofNat (reached.lastHandle + 1), UInt64.ofNat node.index⟩
          options.desiredAccess node.info))
        { reached with
          lastHandle := reached.lastHandle + 1
          handles := reached.handles ++ [(reached.lastHandle + 1, name)] }
  | told {file : FileKey} {name : String} {node : FileNode} {response : Response}
      (used : request.command.usedFile = some file) (held : volume.node? file = .ok (name, node))
      (tells : node.Tells request response) : Fulfils volume now request response volume
  | changed {file : FileKey} {name : String} {node changed : FileNode} {response : Response}
      (used : request.command.usedFile = some file) (held : volume.node? file = .ok (name, node))
      (takes : node.Takes now request response changed) (total : Nat) :
      Fulfils volume now request response { volume.setFile name changed with used := total }
  | kept {file : FileKey} {fileName : Region} {delete : Bool}
      (command : request.command = .cleanup file fileName delete)
      (stays : ∀ name node, volume.node? file = .ok (name, node) →
        (delete || node.deletePending) = false) :
      Fulfils volume now request (request.granted 0 .cleanup) volume
  | removed {file : FileKey} {fileName : Region} {delete : Bool} {name : String} {node : FileNode}
      (command : request.command = .cleanup file fileName delete)
      (held : volume.node? file = .ok (name, node)) (goes : (delete || node.deletePending) = true)
      (total : Nat) :
      Fulfils volume now request (request.granted 0 .cleanup)
        { volume with
          used := total
          files := volume.files.filter fun entry => entry.1 != name }
  | closed {file : FileKey} (command : request.command = .close file) :
      Fulfils volume now request (request.granted 0 .close) (volume.close file)
  | described (command : request.command = .queryVolumeInformation)
      (fits : Response.fixedSize + volume.label.toUTF8.toList.length
        ≤ request.revision.messageLimit) :
      Fulfils volume now request (volume.infoResponse request) volume
  | shutdown (command : request.command = .shutdown) :
      Fulfils volume now request (request.granted 0 .shutdown) volume

/-- What can come of a request. -/
inductive Course (volume : Volume) (now : UInt64) (request : Request) :
    Response → Volume → Prop where
  | refused {status : Status} (refuses : volume.Refuses request status) :
      Course volume now request (request.refused status) volume
  | granted {response : Response} {after : Volume}
      (fulfils : volume.Fulfils now request response after) :
      Course volume now request response after

/-! ### Steps -/

/-- What a result comes to, before the worker has made a response of it. -/
inductive Leads (volume : Volume) (now : UInt64) (request : Request) : Result → Volume → Prop where
  | refused {status : Status} (refuses : volume.Refuses request status) :
      Leads volume now request (.error (status, .ofRequest request)) volume
  | granted {information : UInt64} {draft : Response.Draft} {response : Response} {after : Volume}
      (made : draft.MadeFor request)
      (built : (draft.setStatus .success information).build = .ok response)
      (success : response.io = ⟨.success, information⟩)
      (fulfils : volume.Fulfils now request response after) :
      Leads volume now request (.ok (information, draft)) after

/-- An answer without data is sent as it is. -/
theorem leads_answered {information : Nat} {answer : Answer} (kind : answer.kind = request.kind)
    (bare : answer.dataRegion = none)
    (fulfils : volume.Fulfils now request (request.granted information answer) after) :
    volume.Leads now request (answered (.ofRequest request) information answer) after := by
  have same : answer.kind = (Response.Draft.ofRequest request).kind :=
    kind.trans (Answer.kind_empty request.kind).symm
  have made : ({ Response.Draft.ofRequest request with answer } : Response.Draft).MadeFor request :=
    .setAnswer .start (if_neg (Decidable.not_not.2 same))
  rw [answered_of_kind same]
  refine .granted made (Response.Draft.build_eq_ok.2 ⟨?_, rfl⟩) rfl fulfils
  simp [Response.checkRegion, Response.Draft.setStatus, bare]

/-- The same for the kinds that are answered without any field. -/
theorem leads_plain {answer : Answer} (empty : Answer.empty request.kind = answer)
    (bare : answer.dataRegion = none)
    (fulfils : volume.Fulfils now request (request.granted 0 answer) after) :
    volume.Leads now request (.ok (0, .ofRequest request)) after := by
  have kind : answer.kind = request.kind := empty ▸ Answer.kind_empty request.kind
  have same : answer.kind = (Response.Draft.ofRequest request).kind :=
    kind.trans (Answer.kind_empty request.kind).symm
  have leads := leads_answered kind bare fulfils
  rw [answered_of_kind same] at leads
  subst empty
  exact leads

/-- Where data stands that is appended first. -/
def firstRegion (bytes : Bytes) : Region :=
  ⟨UInt16.ofNat Response.fixedSize, UInt16.ofNat bytes.length⟩

/-- The draft that data was appended to, and nothing else done with. -/
def draftWith (request : Request) (bytes : Bytes) : Response.Draft :=
  { Response.Draft.ofRequest request with trailing := bytes }

theorem append_ofRequest (request : Request) (bytes : Bytes) :
    (Response.Draft.ofRequest request).append bytes
      = if request.revision.messageLimit < Response.fixedSize + bytes.length then
          .error (.tooLarge (Response.fixedSize + bytes.length) request.revision.messageLimit)
        else .ok (firstRegion bytes, draftWith request bytes) :=
  rfl

/-- An answer with data is sent with the data after its fixed part. -/
theorem leads_appended {bytes : Bytes} {information : Nat} {answer : Answer}
    (fits : Response.fixedSize + bytes.length ≤ request.revision.messageLimit)
    (kind : answer.kind = request.kind) (data : answer.dataRegion = some (firstRegion bytes))
    (fulfils : volume.Fulfils now request
      ⟨request.revision, request.hint, ⟨.success, UInt64.ofNat information⟩, answer, bytes⟩
      after) :
    volume.Leads now request (answered (draftWith request bytes) information answer) after := by
  have made : (draftWith request bytes).MadeFor request :=
    .append .start ((append_ofRequest request bytes).trans (if_neg (Nat.not_lt.2 fits)))
  have same : answer.kind = (draftWith request bytes).kind := kind.trans made.belongs.kind.symm
  have small := Revision.lt_word fits
  rw [answered_of_kind same]
  refine .granted (made.setAnswer (if_neg (Decidable.not_not.2 same)))
    (Response.Draft.build_eq_ok.2 ⟨?_, rfl⟩) rfl fulfils
  change Response.checkRegion answer _ = .ok ()
  rw [Response.checkRegion, data]
  exact Region.check_whole small

section Steps

variable {options : OpenOptions} {file : FileKey} {result : Result}

theorem create_leads (command : request.command = .create options)
    (done : volume.create now request options (.ofRequest request) = some (result, after)) :
    volume.Leads now request result after := by
  have kind : request.kind = .create := congrArg Command.kind command
  unfold create at done
  split at done
  · next error failed =>
    cases done
    exact .refused (.unreadable command failed)
  · next named unknown =>
    cases done
    exact .refused (.undefined command named unknown)
  · next name disposition named known =>
    split at done
    · next refusal =>
      cases done
      exact .refused (.disallowed command named known refusal)
    · next allowed =>
      simp only [Option.bind_eq_bind, Option.bind_eq_some_iff, Option.pure_def,
        Option.some.injEq, Prod.mk.injEq, Prod.exists] at done
      obtain ⟨node, reached, found, handle, next, rfl, rfl⟩ := done
      obtain ⟨fresh, rfl⟩ := Word.check?_eq_some_iff.1 next
      exact leads_answered kind.symm rfl (.opened command named known allowed found fresh)

theorem read_leads {offset : UInt64} {length key : UInt32}
    (command : request.command = .read file offset length key)
    (done : volume.read file offset.toNat length.toNat (.ofRequest request)
      = some (result, after)) : volume.Leads now request result after := by
  have used : request.command.usedFile = some file := congrArg Command.usedFile command
  have kind : request.kind = .read := congrArg Command.kind command
  unfold read at done
  split at done
  · next missing =>
    cases done
    exact .refused (.unopened used missing (by simp [command]))
  · next name node held =>
    split at done
    · next past =>
      cases done
      exact .refused (.pastEnd command held past)
    · next inside =>
      have inside := Nat.not_le.1 inside
      obtain ⟨stop, within, done⟩ := Option.bind_eq_some_iff.1 done
      obtain ⟨-, rfl⟩ := Word.check?_eq_some_iff.1 within
      -- What is cut off at the end of the file is cut off by the file anyway.
      have chunk : (node.data.drop offset.toNat).take
            (min node.size (offset.toNat + length.toNat) - offset.toNat)
          = (node.data.drop offset.toNat).take length.toNat := by
        rw [List.take_eq_take_iff, List.length_drop, FileNode.size]
        omega
      dsimp only at done
      rw [chunk, append_ofRequest] at done
      split at done
      · next refused =>
        cases done
        refine .refused (.tooLong command held inside ?_)
        by_contra fits
        rw [if_neg fits] at refused
        cases refused
      · next appended =>
        split at appended
        · cases appended
        · next short =>
          cases appended
          cases done
          have fits := Nat.not_lt.1 short
          exact leads_appended fits kind.symm rfl (.told used held (.read command inside fits))

theorem write_leads {offset : UInt64} {data : Region} {key : UInt32} {constrained : Bool}
    {bytes : Bytes} (command : request.command = .write file offset data key constrained)
    (resolved : request.resolve data = .ok bytes)
    (done : volume.write now file offset.toNat bytes (.ofRequest request)
      = some (result, after)) : volume.Leads now request result after := by
  have used : request.command.usedFile = some file := congrArg Command.usedFile command
  have kind : request.kind = .write := congrArg Command.kind command
  unfold write at done
  split at done
  · next missing =>
    cases done
    refine .refused (.unopened used missing fun _ _ _ _ _ same => ?_)
    cases command.symm.trans same
    exact ⟨bytes, resolved⟩
  · next name node held =>
    split at done
    · next far =>
      cases done
      refine .refused (.tooFar command resolved held ?_)
      by_contra within
      have fits := Word.check?_eq_some_iff.2 ⟨Nat.not_le.1 within, rfl⟩
      cases far.symm.trans fits
    · next stop ends =>
      obtain ⟨within, rfl⟩ := Word.check?_eq_some_iff.1 ends
      obtain ⟨total, -, done⟩ := Option.bind_eq_some_iff.1 done
      split at done
      · cases done
        exact .refused (.noRoomToWrite command resolved held within)
      · obtain ⟨grown, resized, done⟩ := Option.bind_eq_some_iff.1 done
        -- The file is not cut: it has the size that it is brought to, or is filled up to it.
        have filled : grown = { node with
            data := node.data
              ++ List.replicate (offset.toNat + bytes.length - node.size) 0 } := by
          have whole : node.data.length ≤ max (offset.toNat + bytes.length) node.size :=
            Nat.le_max_right _ _
          have gap : max (offset.toNat + bytes.length) node.size - node.size
              = offset.toNat + bytes.length - node.size := by omega
          rw [FileNode.resize?_eq_some resized, List.take_of_length_le whole, gap]
        subst filled
        cases done
        exact leads_answered kind.symm rfl
          (.changed used held (.write command resolved within) total)

theorem setInformation_leads {change : FileChange}
    (command : request.command = .setInformation file change)
    (done : volume.setInformation now file change (.ofRequest request) = some (result, after)) :
    volume.Leads now request result after := by
  have used : request.command.usedFile = some file := congrArg Command.usedFile command
  have kind : request.kind = .setInformation := congrArg Command.kind command
  unfold setInformation at done
  split at done
  · next missing =>
    cases done
    exact .refused (.unopened used missing (by simp [command]))
  · next name node held =>
    cases change with
    | endOfFile size advanceOnly =>
      obtain ⟨room, -, done⟩ := Option.bind_eq_some_iff.1 done
      split at done
      · obtain ⟨total, -, done⟩ := Option.bind_eq_some_iff.1 done
        obtain ⟨resized, ends, done⟩ := Option.bind_eq_some_iff.1 done
        obtain rfl := FileNode.resize?_eq_some ends
        cases done
        exact leads_answered kind.symm rfl (.changed used held (.endOfFile command) _)
      · cases done
        exact .refused (.noRoomToGrow command held)
    | disposition delete =>
      cases done
      exact leads_answered kind.symm rfl (.changed used held (.disposition command) volume.used)
    | basic =>
      cases done
      exact leads_answered kind.symm rfl (.changed used held (.basic command) volume.used)
    | allocation size =>
      cases done
      exact leads_answered kind.symm rfl (.changed used held (.allocation command) volume.used)
    | rename newName replace =>
      cases done
      exact .refused (.rename command held)

theorem queried_leads (answer : FileInfo → Answer) (used : request.command.usedFile = some file)
    (reads : ∀ file offset data key constrained,
      request.command ≠ .write file offset data key constrained)
    (kind : ∀ info, (answer info).kind = request.kind)
    (bare : ∀ info, (answer info).dataRegion = none)
    (tells : ∀ node : FileNode, node.Tells request (request.granted 0 (answer node.info)))
    (done : volume.queried file (.ofRequest request) answer = some (result, after)) :
    volume.Leads now request result after := by
  unfold queried at done
  split at done
  · next missing =>
    cases done
    exact .refused (.unopened used missing fun _ _ _ _ _ same => (reads _ _ _ _ _ same).elim)
  · next name node held =>
    cases done
    exact leads_answered (kind _) (bare _) (.told used held (tells node))

theorem volumeInfo_leads (command : request.command = .queryVolumeInformation)
    (done : volume.volumeInfo (.ofRequest request) = some (result, after)) :
    volume.Leads now request result after := by
  have kind : request.kind = .queryVolumeInformation := congrArg Command.kind command
  unfold volumeInfo at done
  split at done
  · cases done
    exact .refused (.longLabel command)
  · next appended =>
    rw [append_ofRequest] at appended
    split at appended
    · cases appended
    · next short =>
      cases appended
      cases done
      have fits := Nat.not_lt.1 short
      exact leads_appended fits kind.symm rfl (.described command fits)

theorem cleanup_leads {fileName : Region} {delete : Bool}
    (command : request.command = .cleanup file fileName delete)
    (done : volume.cleanup file delete = some after) :
    volume.Leads now request (.ok (0, .ofRequest request)) after := by
  have kind : request.kind = .cleanup := congrArg Command.kind command
  suffices fulfils : volume.Fulfils now request (request.granted 0 .cleanup) after from
    leads_plain (by rw [kind]; rfl) rfl fulfils
  unfold cleanup at done
  split at done
  · next unnamed =>
    cases done
    refine .kept command fun name node held => ?_
    cases unnamed.symm.trans (node?_eq_ok.1 held).1
  · next name named =>
    split at done
    · next missing =>
      cases done
      refine .kept command fun other node held => ?_
      obtain ⟨named', found⟩ := node?_eq_ok.1 held
      cases named.symm.trans named'
      cases missing.symm.trans found
    · next node found =>
      have held := node?_eq_ok.2 ⟨named, found⟩
      split at done
      · next goes =>
        obtain ⟨total, -, done⟩ := Option.bind_eq_some_iff.1 done
        cases done
        exact .removed command held goes total
      · next stays =>
        cases done
        refine .kept command fun other node' held' => ?_
        cases held.symm.trans held'
        exact eq_false_of_ne_true stays

/-- Whatever is asked of a volume, it is refused for one of the reasons above, or granted in one of
the ways above. -/
theorem step_leads
    (done : volume.step now request (.ofRequest request) = some (result, after)) :
    volume.Leads now request result after := by
  unfold step at done
  cases command : request.command with
  | create options =>
    rw [command] at done
    exact create_leads command done
  | read file offset length key =>
    rw [command] at done
    exact read_leads command done
  | write file offset data key constrained =>
    simp only [command] at done
    split at done
    · next resolved => exact write_leads command resolved done
    · next failed =>
      cases done
      exact .refused (.unresolved command failed)
  | queryInformation file =>
    have kind : request.kind = .queryInformation := congrArg Command.kind command
    rw [command] at done
    exact queried_leads .queryInformation (by rw [command]; rfl) (by simp [command])
      (fun _ => kind.symm) (fun _ => rfl) (fun _ => .queryInformation command) done
  | flushBuffers file =>
    have kind : request.kind = .flushBuffers := congrArg Command.kind command
    rw [command] at done
    exact queried_leads .flushBuffers (by rw [command]; rfl) (by simp [command])
      (fun _ => kind.symm) (fun _ => rfl) (fun _ => .flushBuffers command) done
  | setInformation file change =>
    rw [command] at done
    exact setInformation_leads command done
  | cleanup file fileName delete =>
    rw [command] at done
    obtain ⟨cleaned, cleans, same⟩ := Option.map_eq_some_iff.1 done
    cases same
    exact cleanup_leads command cleans
  | close file =>
    have kind : request.kind = .close := congrArg Command.kind command
    rw [command] at done
    cases done
    exact leads_plain (by rw [kind]; rfl) rfl (.closed command)
  | queryVolumeInformation =>
    rw [command] at done
    exact volumeInfo_leads command done
  | shutdown =>
    have kind : request.kind = .shutdown := congrArg Command.kind command
    rw [command] at done
    cases done
    exact leads_plain (by rw [kind]; rfl) rfl (.shutdown command)
  | _ =>
    rw [command] at done
    cases done
    exact .refused (.unserved (by simp [Request.kind, command, Command.kind]))

end Steps

/-! ### Responses -/

/-- The volume answers a request, and this response is what the worker makes of it. -/
def Sends (volume : Volume) (now : UInt64) (request : Request) (response : Response)
    (after : Volume) : Prop :=
  ∃ draft,
    handle now volume request (.ofRequest request)
      = (.complete response.status response.io.information draft, after) ∧
    Desk.completed request.revision draft response.status response.io.information = .ok response

/-- A volume answers at once or crashes, and there is a response for every answer. -/
theorem handle_course {reaction : Reaction}
    (handled : handle now volume request (.ofRequest request) = (reaction, after)) :
    reaction = .crashed ∧ after = volume ∨
      ∃ status information draft response,
        reaction = .complete status information draft ∧
        Desk.completed request.revision draft status information = .ok response ∧
        response.io = ⟨status, information⟩ ∧ response.Matches request ∧
        volume.Course now request response after := by
  unfold handle at handled
  split at handled
  · cases handled
    exact .inl ⟨rfl, rfl⟩
  · next information draft next done =>
    cases handled
    cases step_leads done with
    | granted made built success fulfils =>
      have mine := (made.setStatus .success information).build built
      rw [← Response.completed_of_made made] at built
      exact .inr ⟨_, _, _, _, rfl, built, success, mine, .granted fulfils⟩
  · next status left next done =>
    cases handled
    cases step_leads done with
    | refused refuses =>
      have bare : Desk.completed request.revision (.ofRequest request) status 0
          = .ok (request.refused status) := by
        rw [Response.completed_of_made .start, Response.Draft.build_eq_ok]
        exact ⟨(Response.wellFormed_ofStatus request.revision request.hint request.kind status).2,
          rfl⟩
      exact .inr ⟨_, _, _, _, rfl, bare, rfl, Response.matches_ofStatus request status,
        .refused refuses⟩

theorem course_of_sends (sends : volume.Sends now request response after) :
    volume.Course now request response after := by
  obtain ⟨draft, handled, completed⟩ := sends
  rcases handle_course handled with
    ⟨crashed, -⟩ | ⟨status, information, other, sent, same, completed', -, -, course⟩
  · cases crashed
  · cases same
    cases completed.symm.trans completed'
    exact course

/-- What a volume refuses with are failures, and final. -/
theorem Refuses.failed (refuses : volume.Refuses request status) :
    status.isSuccess = false ∧ status.isPending = false := by
  cases refuses with
  | disallowed command named known refusal =>
    unfold Disposition.refusal at refusal
    split at refusal <;> cases refusal <;> decide
  | unopened used missing resolved =>
    unfold node? at missing
    split at missing
    · cases missing
      decide
    · split at missing
      · cases missing
        decide
      · cases missing
  | _ => decide

/-- Nothing but a grant succeeds. -/
theorem Course.fulfils (course : volume.Course now request response after)
    (success : response.status.isSuccess = true) : volume.Fulfils now request response after := by
  cases course with
  | refused refuses =>
    have failed : (request.refused _).status.isSuccess = false := refuses.failed.1
    rw [failed] at success
    cases success
  | granted fulfils => exact fulfils

/-- A grant without data or count may answer every request that bounds neither. -/
theorem validate_granted {command : Command} {answer : Answer} (asked : request.command = command)
    (kind : answer.kind = command.kind) (bare : answer.dataRegion = none)
    (unlimited : Response.limitFor command = none) (unbounded : command.requestedLength = none) :
    (request.granted 0 answer).validate request = .ok () := by
  subst asked
  exact validate_bare kind bare unbounded (by simp [unlimited])

theorem tells_valid {node : FileNode} (tells : node.Tells request response) :
    response.status = .success ∧ response.validate request = .ok () := by
  cases tells with
  | read command inside fits =>
    have small := Revision.lt_word fits
    exact ⟨rfl, (readResponse_spec request command small (List.length_take_le _ _)).2⟩
  | queryInformation command | flushBuffers command =>
    exact ⟨rfl, validate_granted command rfl rfl rfl rfl⟩

theorem takes_valid {node changed : FileNode} (takes : node.Takes now request response changed) :
    response.status = .success ∧ response.validate request = .ok () := by
  cases takes with
  | @write file offset data key constrained bytes command resolved within =>
    have kind : request.kind = .write := congrArg Command.kind command
    have unbounded : request.command.requestedLength = none :=
      congrArg Command.requestedLength command
    refine ⟨rfl, validate_bare kind.symm rfl unbounded fun limit bounded => ?_⟩
    rw [command] at bounded
    cases bounded
    exact Nat.le_of_eq (Region.length_resolveTrailing resolved)
  | endOfFile command | disposition command | basic command | allocation command =>
    exact ⟨rfl, validate_granted command rfl rfl rfl rfl⟩

/-- What a volume grants succeeds, and the response may answer the request. -/
theorem Fulfils.valid (fulfils : volume.Fulfils now request response after) :
    response.status = .success ∧ response.validate request = .ok () := by
  cases fulfils with
  | told used held tells => exact tells_valid tells
  | changed used held takes total => exact takes_valid takes
  | described command fits =>
    have kind : request.kind = .queryVolumeInformation := congrArg Command.kind command
    refine ⟨rfl, Response.validate_eq_ok.2 ⟨kind.symm, .inl rfl, ?_, ?_⟩⟩ <;>
      simp [command, Response.limitFor, Command.requestedLength]
  | opened command | kept command | removed command | closed command | shutdown command =>
    exact ⟨rfl, validate_granted command rfl rfl rfl rfl⟩

/-- Every response of a volume may answer its request, and none leaves it pending. -/
theorem Course.valid (course : volume.Course now request response after) :
    response.validate request = .ok () ∧ response.status.isPending = false := by
  cases course with
  | refused refuses => exact ⟨Response.validate_ofStatus request _, refuses.failed.2⟩
  | granted fulfils =>
    obtain ⟨success, valid⟩ := fulfils.valid
    exact ⟨valid, by rw [success]; decide⟩

end Volume
end FileBroker
