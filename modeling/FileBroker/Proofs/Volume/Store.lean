import FileBroker.Proofs.Volume.History

/-!
What a volume is to its users: files by name, and names by handle. The store says of every request
when it is refused and why, what a grant tells, and which one file or handle it changes. Space is
not accounted for, so that a write and a new size may be refused for want of it; everything else is
settled by what the store holds. A volume that starts empty follows the store step by step.
-/
namespace FileBroker

/-- A file as its users know it. -/
structure StoredFile where
  index : UInt64
  bytes : Bytes
  /-- The file goes when a handle to it is cleaned up. -/
  doomed : Bool

namespace StoredFile

/-- Bytes are put over a file from an offset on; zeros fill a file that does not reach so far. -/
def write (file : StoredFile) (offset : Nat) (bytes : Bytes) : StoredFile :=
  let filled := file.bytes ++ List.replicate (offset + bytes.length - file.bytes.length) 0
  { file with bytes := filled.take offset ++ bytes ++ filled.drop (offset + bytes.length) }

/-- A file is cut off at a length, or filled up to it with zeros. -/
def resize (file : StoredFile) (length : Nat) : StoredFile :=
  { file with
    bytes := file.bytes.take length ++ List.replicate (length - file.bytes.length) 0 }

/-- What was written stands where it was written, with zeros in a gap before it; all other bytes
stay. -/
theorem getElem?_write (file : StoredFile) (offset : Nat) (bytes : Bytes) (i : Nat) :
    (file.write offset bytes).bytes[i]? =
      if offset ≤ i ∧ i < offset + bytes.length then bytes[i - offset]?
      else if i < file.bytes.length then file.bytes[i]?
      else if i < offset + bytes.length then some 0
      else none := by
  have reaches : offset ≤ file.bytes.length
      + (offset + bytes.length - file.bytes.length) := by omega
  unfold write
  simp only [List.getElem?_append, List.getElem?_take, List.getElem?_drop, List.getElem?_replicate,
    List.length_append, List.length_take, List.length_replicate, Nat.min_eq_left reaches]
  grind

theorem le_length_write (file : StoredFile) (offset : Nat) (bytes : Bytes) :
    offset + bytes.length ≤ (file.write offset bytes).bytes.length := by
  unfold write
  simp only [List.length_append, List.length_take, List.length_drop, List.length_replicate]
  omega

theorem take_drop_write (file : StoredFile) (offset : Nat) (bytes : Bytes) :
    ((file.write offset bytes).bytes.drop offset).take bytes.length = bytes := by
  refine List.ext_getElem? fun i => ?_
  rw [List.getElem?_take, List.getElem?_drop, getElem?_write]
  by_cases inside : i < bytes.length
  · rw [if_pos inside, if_pos ⟨Nat.le_add_right .., by omega⟩, Nat.add_sub_cancel_left]
  · rw [if_neg inside, List.getElem?_eq_none (Nat.not_lt.1 inside)]

/-- What is reported about a file. -/
def ShownBy (file : StoredFile) (info : FileInfo) : Prop :=
  info.index = file.index ∧ info.fileSize.toNat = file.bytes.length

end StoredFile

structure Store where
  files : String → Option StoredFile
  handles : UInt64 → Option String
  /-- Every key that was ever returned. -/
  issued : List FileKey

namespace Store

def empty : Store := ⟨fun _ => none, fun _ => none, []⟩

/-- The file behind an open handle, with its name. -/
def behind (store : Store) (file : FileKey) : Except Status (String × StoredFile) :=
  match store.handles file.handle with
  | none => .error .invalidParameter
  | some name =>
    match store.files name with
    | none => .error .objectNameNotFound
    | some held => .ok (name, held)

/-- Every other file, and every handle, stays as it is. -/
def put (store : Store) (name : String) (file : Option StoredFile) : Store :=
  { store with files := Function.update store.files name file }

theorem put_self {store : Store} {file : FileKey} {name : String} {held : StoredFile}
    (behind : store.behind file = .ok (name, held)) : store.put name (some held) = store := by
  unfold Store.behind at behind
  split at behind
  · cases behind
  · split at behind
    · cases behind
    · next found =>
      cases behind
      unfold put
      rw [← found, Function.update_eq_self]

/-- Every file, and every other handle, stays as it is. -/
def close (store : Store) (handle : UInt64) : Store :=
  { store with handles := Function.update store.handles handle none }

/-- A file is open under a key that was just returned. -/
def open_ (store : Store) (name : String) (file : StoredFile) (handle : UInt64) : Store where
  files := Function.update store.files name (some file)
  handles := Function.update store.handles handle (some name)
  issued := ⟨handle, file.index⟩ :: store.issued

section Rules

variable (store : Store) (request : Request) (response : Response) (after : Store)

/-- A refused request changes nothing. -/
def Refuses (status : Status) : Prop := response = request.refused status ∧ after = store

/-- A file is reported on as it is then. -/
def Reports (information : Nat) (answer : FileInfo → Answer) (file : StoredFile) : Prop :=
  ∃ info, response = request.granted information (answer info) ∧ file.ShownBy info

/-- A file is opened under a handle that was never returned before. -/
def Opens (access : UInt32) (name : String) (file : StoredFile) : Prop :=
  ∃ handle info, (∀ key ∈ store.issued, key.handle ≠ handle) ∧ file.ShownBy info ∧
    response = request.granted 0 (.create ⟨handle, file.index⟩ access info) ∧
    after = store.open_ name file handle

/-- The top byte of the open options says what is to become of a file that is there, or is not:
0 supersedes it, 1 opens it, 2 makes it, 3 opens or makes it, 4 overwrites it, 5 overwrites or makes
it. -/
def Creates (options : OpenOptions) : Prop :=
  match request.resolveText options.fileName with
  | .error _ => store.Refuses request response after .invalidParameter
  | .ok name =>
    let disposition := (options.options >>> 24).toNat
    if 5 < disposition then store.Refuses request response after .invalidParameter
    else
      match store.files name with
      | some held =>
        if disposition = 2 then store.Refuses request response after .objectNameCollision
        else if disposition = 0 ∨ disposition = 4 ∨ disposition = 5 then
          store.Opens request response after options.desiredAccess name { held with bytes := [] }
        else store.Opens request response after options.desiredAccess name held
      | none =>
        if disposition = 1 ∨ disposition = 4 then
          store.Refuses request response after .objectNameNotFound
        else
          ∃ index, (∀ key ∈ store.issued, key.index ≠ index) ∧
            store.Opens request response after options.desiredAccess name ⟨index, [], false⟩

/-- Bytes are returned up to the end of the file, or up to the length asked for. -/
def Reads (file : FileKey) (offset length : Nat) : Prop :=
  match store.behind file with
  | .error status => store.Refuses request response after status
  | .ok (_, held) =>
    let found := (held.bytes.drop offset).take length
    if held.bytes.length ≤ offset then store.Refuses request response after .endOfFile
    else if request.revision.messageLimit < Response.fixedSize + found.length then
      store.Refuses request response after .bufferTooSmall
    else
      response.status = .success ∧ response.io.information.toNat = found.length ∧
        response.data = .ok found ∧ after = store

def Writes (file : FileKey) (offset : Nat) (data : Region) : Prop :=
  match request.resolve data with
  | .error _ => store.Refuses request response after .invalidParameter
  | .ok bytes =>
    match store.behind file with
    | .error status => store.Refuses request response after status
    | .ok (name, held) =>
      if UInt64.size ≤ offset + bytes.length then
        store.Refuses request response after .invalidParameter
      else
        store.Refuses request response after .insufficientResources ∨
          Reports request response bytes.length .write (held.write offset bytes) ∧
            after = store.put name (some (held.write offset bytes))

def Changes (file : FileKey) (change : FileChange) : Prop :=
  match store.behind file with
  | .error status => store.Refuses request response after status
  | .ok (name, held) =>
    match change with
    | .endOfFile size _ =>
      store.Refuses request response after .insufficientResources ∨
        Reports request response 0 .setInformation (held.resize size.toNat) ∧
          after = store.put name (some (held.resize size.toNat))
    | .disposition delete =>
      Reports request response 0 .setInformation held ∧
        after = store.put name (some { held with doomed := delete })
    | .basic .. | .allocation .. =>
      Reports request response 0 .setInformation held ∧ after = store
    | .rename .. => store.Refuses request response after .notImplemented

def Queries (file : FileKey) (answer : FileInfo → Answer) : Prop :=
  match store.behind file with
  | .error status => store.Refuses request response after status
  | .ok (_, held) => Reports request response 0 answer held ∧ after = store

/-- A file goes if that is asked for now, or was before. -/
def CleansUp (file : FileKey) (delete : Bool) : Prop :=
  response = request.granted 0 .cleanup ∧
    match store.behind file with
    | .ok (name, held) =>
      after = if delete = true ∨ held.doomed = true then store.put name none else store
    | .error _ => after = store

/-- What a request comes to. -/
def Serves : Prop :=
  match request.command with
  | .create options => store.Creates request response after options
  | .read file offset length _ => store.Reads request response after file offset.toNat length.toNat
  | .write file offset data _ _ => store.Writes request response after file offset.toNat data
  | .queryInformation file => store.Queries request response after file .queryInformation
  | .flushBuffers file => store.Queries request response after file .flushBuffers
  | .setInformation file change => store.Changes request response after file change
  | .cleanup file _ delete => store.CleansUp request response after file delete
  | .close file => response = request.granted 0 .close ∧ after = store.close file.handle
  | .queryVolumeInformation =>
    (response = request.refused .bufferOverflow ∨ response.status = .success) ∧ after = store
  | .shutdown => response = request.granted 0 .shutdown ∧ after = store
  | _ => store.Refuses request response after .invalidDeviceRequest

end Rules

end Store

/-! ### The store of a volume -/

/-- A file of a volume as its users know it. -/
def FileNode.stored (node : FileNode) : StoredFile :=
  ⟨UInt64.ofNat node.index, node.data, node.deletePending⟩

namespace Volume

/-- A store holds what a volume holds. -/
structure Shows (volume : Volume) (store : Store) : Prop where
  files : ∀ name, store.files name = (volume.file? name).map FileNode.stored
  handles : ∀ handle, store.handles handle = volume.handles.lookup handle.toNat

/-- And no key that was returned is ahead of the numbers of the volume. -/
structure Represents (volume : Volume) (store : Store) : Prop extends Shows volume store where
  numbered : volume.Numbered
  issued : ∀ key ∈ store.issued,
    key.handle.toNat ≤ volume.lastHandle ∧ key.index.toNat ≤ volume.lastIndex

/-- What a volume holds, told to somebody to whom no key was returned yet. -/
def store (volume : Volume) : Store where
  files name := (volume.file? name).map FileNode.stored
  handles handle := volume.handles.lookup handle.toNat
  issued := []

theorem Numbered.represents {volume : Volume} (numbered : volume.Numbered) :
    volume.Represents volume.store where
  files _ := rfl
  handles _ := rfl
  numbered := numbered
  issued _ member := absurd member List.not_mem_nil

theorem represents_new (label : String) (size created : UInt64) :
    (new label size.toNat created).Represents .empty :=
  (numbered_new label size created).represents

section Steps

variable {volume after : Volume} {store : Store} {now : UInt64} {request : Request}
  {response : Response} {name : String} {node changed : FileNode} {file : FileKey}

theorem behind_eq (shows : volume.Shows store) (file : FileKey) :
    store.behind file = (volume.node? file).map fun held => (held.1, held.2.stored) := by
  unfold Store.behind node?
  rw [shows.handles]
  change (match volume.nameOf? file with | none => _ | some name => _) = _
  cases volume.nameOf? file with
  | none => rfl
  | some name =>
    dsimp only
    rw [shows.files]
    cases volume.file? name <;> rfl

theorem behind_of_held (shows : volume.Shows store) (held : volume.node? file = .ok (name, node)) :
    store.behind file = .ok (name, node.stored) := by
  rw [behind_eq shows, held]
  rfl

theorem behind_of_missing (shows : volume.Shows store) {status : Status}
    (missing : volume.node? file = .error status) : store.behind file = .error status := by
  rw [behind_eq shows, missing]
  rfl

/-- The sizes of files fit the words they are reported in. -/
theorem shownBy_info (short : node.size ≤ FileNode.longest) : node.stored.ShownBy node.info :=
  have bound : FileNode.longest < UInt64.size := by decide
  ⟨rfl, UInt64.toNat_ofNat_of_lt' (Nat.lt_of_le_of_lt short bound)⟩

/-! #### Dispositions -/

def Disposition.number : Disposition → Nat
  | .supersede => 0
  | .openExisting => 1
  | .create => 2
  | .openOrCreate => 3
  | .overwrite => 4
  | .overwriteOrCreate => 5

namespace Disposition

variable {options : UInt32} {disposition : Disposition}

theorem ofOptions?_eq_some :
    ofOptions? options = some disposition ↔ (options >>> 24).toNat = disposition.number := by
  unfold ofOptions?
  rcases (options >>> 24).toNat with _ | _ | _ | _ | _ | _ | n <;>
    cases disposition <;> simp [number]

theorem ofOptions?_eq_none : ofOptions? options = none ↔ 5 < (options >>> 24).toNat := by
  unfold ofOptions?
  rcases (options >>> 24).toNat with _ | _ | _ | _ | _ | _ | n <;> simp

theorem number_le (disposition : Disposition) : disposition.number ≤ 5 := by
  cases disposition <;> decide

/-- What is there must not be made; what is not there can be neither opened nor overwritten. -/
theorem refusal_eq (disposition : Disposition) (exists_ : Bool) :
    disposition.refusal exists_ =
      if exists_ then if disposition.number = 2 then some .objectNameCollision else none
      else if disposition.number = 1 ∨ disposition.number = 4 then some .objectNameNotFound
      else none := by
  cases disposition <;> cases exists_ <;> rfl

theorem truncates_iff : disposition.truncates = true ↔
    disposition.number = 0 ∨ disposition.number = 4 ∨ disposition.number = 5 := by
  cases disposition <;> decide

end Disposition

/-! #### Refusals -/

/-- Where a volume refuses, the store does for the same reason. -/
theorem serves_of_refuses (shows : volume.Shows store) {status : Status}
    (refuses : volume.Refuses request status) :
    store.Serves request (request.refused status) store := by
  have same : store.Refuses request (request.refused status) store status := ⟨rfl, rfl⟩
  cases refuses with
  | unreadable command failed =>
    simpa only [Store.Serves, command, Store.Creates, failed] using same
  | undefined command named unknown =>
    have beyond := Disposition.ofOptions?_eq_none.1 unknown
    simpa only [Store.Serves, command, Store.Creates, named, if_pos beyond] using same
  | @disallowed options name disposition _ command named known refusal =>
    have number := Disposition.ofOptions?_eq_some.1 known
    have small := Nat.not_lt.2 disposition.number_le
    have files := shows.files name
    simp only [Store.Serves, command, Store.Creates, named, number, if_neg small]
    rw [Disposition.refusal_eq] at refusal
    cases held : volume.file? name with
    | none =>
      rw [held] at files refusal
      simp only [files, Option.map_none]
      by_cases absent : disposition.number = 1 ∨ disposition.number = 4
      · simp only [Option.isSome_none, Bool.false_eq_true, if_false, if_pos absent] at refusal ⊢
        cases refusal
        exact same
      · simp [absent] at refusal
    | some node =>
      rw [held] at files refusal
      simp only [files, Option.map_some]
      by_cases present : disposition.number = 2
      · simp only [Option.isSome_some, if_true, if_pos present] at refusal ⊢
        cases refusal
        exact same
      · simp [present] at refusal
  | unopened used missing resolved =>
    have nothing := behind_of_missing shows missing
    cases command : request.command with
    | read | queryInformation | flushBuffers | setInformation =>
      rw [command] at used
      cases used
      simpa only [Store.Serves, command, Store.Reads, Store.Queries, Store.Changes, nothing]
        using same
    | write =>
      rw [command] at used
      cases used
      obtain ⟨bytes, found⟩ := resolved _ _ _ _ _ command
      simpa only [Store.Serves, command, Store.Writes, found, nothing] using same
    | _ =>
      rw [command] at used
      cases used
  | @pastEnd _ _ _ _ _ node command held past =>
    have behind := behind_of_held shows held
    change node.stored.bytes.length ≤ _ at past
    simpa only [Store.Serves, command, Store.Reads, behind, if_pos past] using same
  | @tooLong _ _ _ _ _ node command held inside long =>
    have behind := behind_of_held shows held
    change _ < node.stored.bytes.length at inside
    change _ < _ + ((node.stored.bytes.drop _).take _).length at long
    simpa only [Store.Serves, command, Store.Reads, behind, if_neg (Nat.not_le.2 inside),
      if_pos long] using same
  | unresolved command failed =>
    simpa only [Store.Serves, command, Store.Writes, failed] using same
  | tooFar command resolved held far =>
    have behind := behind_of_held shows held
    change UInt64.size ≤ _ at far
    simpa only [Store.Serves, command, Store.Writes, resolved, behind, if_pos far] using same
  | noRoomToWrite command resolved held within =>
    have behind := behind_of_held shows held
    replace within := Nat.not_le.2 within
    change ¬ UInt64.size ≤ _ at within
    simp only [Store.Serves, command, Store.Writes, resolved, behind, if_neg within]
    exact .inl same
  | noRoomToGrow command held =>
    have behind := behind_of_held shows held
    simp only [Store.Serves, command, Store.Changes, behind]
    exact .inl same
  | rename command held =>
    have behind := behind_of_held shows held
    simpa only [Store.Serves, command, Store.Changes, behind] using same
  | longLabel command =>
    simp [Store.Serves, command]
  | unserved kind =>
    cases command : request.command <;>
      simp only [Request.kind, command, Command.kind] at kind <;>
      first
      | exact absurd kind (by decide)
      | simpa only [Store.Serves, command] using same

/-! #### Grants -/

/-- A file that is put in a store stands under its name in the volume. -/
theorem Shows.put (shows : volume.Shows store) {file : Option FileNode}
    (files : after.file? = Function.update volume.file? name file)
    (handles : after.handles = volume.handles) :
    after.Shows (store.put name (file.map FileNode.stored)) where
  files other := by
    change Function.update store.files name _ other = _
    rw [files, Function.update_apply, Function.update_apply, shows.files]
    split <;> rfl
  handles handle := (shows.handles handle).trans (by rw [handles])

theorem Represents.put (represents : volume.Represents store) {file : Option FileNode}
    (files : after.file? = Function.update volume.file? name file)
    (handles : after.handles = volume.handles) (numbered : after.Numbered)
    (lastHandle : after.lastHandle = volume.lastHandle)
    (lastIndex : after.lastIndex = volume.lastIndex) :
    after.Represents (store.put name (file.map FileNode.stored)) where
  toShows := represents.toShows.put files handles
  numbered := numbered
  issued key member := by
    rw [lastHandle, lastIndex]
    exact represents.issued key member

/-- What a volume tells about a file, the store tells. -/
theorem serves_of_tells (represents : volume.Represents store)
    (held : volume.node? file = .ok (name, node)) (used : request.command.usedFile = some file)
    (tells : node.Tells request response) : store.Serves request response store := by
  have behind := behind_of_held represents.toShows held
  have shown := shownBy_info (represents.numbered.open_file held)
  cases tells with
  | @read _ offset length _ command inside fits =>
    rw [command] at used
    cases used
    have small := Revision.lt_word fits
    have data := (readResponse_spec request command small (List.length_take_le _ _)).1
    replace inside := Nat.not_le.2 inside
    replace fits := Nat.not_lt.2 fits
    change ¬ node.stored.bytes.length ≤ _ at inside
    change ¬ _ < _ + ((node.stored.bytes.drop _).take _).length at fits
    simp only [Store.Serves, command, Store.Reads, behind, if_neg inside, if_neg fits]
    exact ⟨rfl, information_readResponse request small, data, trivial⟩
  | queryInformation command | flushBuffers command =>
    rw [command] at used
    cases used
    simp only [Store.Serves, command, Store.Queries, behind]
    exact ⟨⟨node.info, rfl, shown⟩, trivial⟩

/-- What a request makes of a file of a volume, it makes of the file in the store. -/
theorem serves_of_takes (represents : volume.Represents store)
    (held : volume.node? file = .ok (name, node)) (used : request.command.usedFile = some file)
    (takes : node.Takes now request response changed) (short : changed.size ≤ FileNode.longest) :
    store.Serves request response (store.put name (some changed.stored)) := by
  have behind := behind_of_held represents.toShows held
  have shown := shownBy_info short
  cases takes with
  | write command resolved within =>
    rw [command] at used
    cases used
    replace within := Nat.not_le.2 within
    change ¬ UInt64.size ≤ _ at within
    simp only [Store.Serves, command, Store.Writes, resolved, behind, if_neg within]
    exact .inr ⟨⟨_, rfl, shown⟩, rfl⟩
  | endOfFile command =>
    rw [command] at used
    cases used
    simp only [Store.Serves, command, Store.Changes, behind]
    exact .inr ⟨⟨_, rfl, shown⟩, rfl⟩
  | disposition command =>
    rw [command] at used
    cases used
    simp only [Store.Serves, command, Store.Changes, behind]
    exact ⟨⟨_, rfl, shown⟩, rfl⟩
  | basic command | allocation command =>
    rw [command] at used
    cases used
    have same : store.put name (some node.stored) = store := Store.put_self behind
    simp only [Store.Serves, command, Store.Changes, behind]
    exact ⟨⟨_, rfl, shown⟩, same⟩

/-- An open reaches what the disposition prescribes, under numbers that are new to everybody. -/
theorem serves_of_opened (represents : volume.Represents store) {options : OpenOptions}
    {disposition : Disposition} {reached : Volume} (command : request.command = .create options)
    (named : request.resolveText options.fileName = .ok name)
    (known : Disposition.ofOptions? options.options = some disposition)
    (allowed : disposition.refusal (volume.file? name).isSome = none)
    (found : volume.reach now name disposition = some (node, reached))
    (fresh : reached.lastHandle + 1 < Word.limit) (short : node.size ≤ FileNode.longest) :
    let handle := UInt64.ofNat (reached.lastHandle + 1)
    store.Serves request
      (request.granted 0
        (.create ⟨handle, UInt64.ofNat node.index⟩ options.desiredAccess node.info))
      (store.open_ name node.stored handle) := by
  intro handle
  have number := Disposition.ofOptions?_eq_some.1 known
  have files := represents.files name
  have last : reached.lastHandle = volume.lastHandle := (handles_reached found).2.1
  have word : handle.toNat = volume.lastHandle + 1 := last ▸ UInt64.toNat_ofNat_of_lt' fresh
  have opens : store.Opens request
      (request.granted 0
        (.create ⟨handle, UInt64.ofNat node.index⟩ options.desiredAccess node.info))
      (store.open_ name node.stored handle) options.desiredAccess name node.stored := by
    refine ⟨handle, node.info, fun key member same => ?_, shownBy_info short, rfl, rfl⟩
    have before := (represents.issued key member).1
    rw [same, word] at before
    omega
  have small := Nat.not_lt.2 disposition.number_le
  simp only [Store.Serves, command, Store.Creates, named, number, if_neg small]
  rw [Disposition.refusal_eq] at allowed
  rcases reach_cases found with
    ⟨absent, room, rfl, -⟩ | ⟨old, held, reaches⟩
  · have creates : ¬ (disposition.number = 1 ∨ disposition.number = 4) := by
      intro refused
      simp [absent, refused] at allowed
    rw [absent] at files
    simp only [files, Option.map_none, if_neg creates]
    refine ⟨UInt64.ofNat (volume.lastIndex + 1), fun key member same => ?_, opens⟩
    have before := (represents.issued key member).2
    have next : (UInt64.ofNat (volume.lastIndex + 1)).toNat = volume.lastIndex + 1 :=
      UInt64.toNat_ofNat_of_lt' room
    rw [same, next] at before
    omega
  · have finds : disposition.number ≠ 2 := by
      intro refused
      simp [held, refused] at allowed
    rw [held] at files
    simp only [files, Option.map_some, if_neg finds]
    rcases reaches with ⟨empties, rfl, -⟩ | ⟨keeps, rfl, -⟩
    · rw [if_pos (Disposition.truncates_iff.1 empties)]
      exact opens
    · rw [if_neg (mt Disposition.truncates_iff.2 (by simp [keeps]))]
      exact opens

/-- A handle that was never given out is found under its number; all others are found as before. -/
theorem Represents.open_ (represents : volume.Represents store) {reached : Volume}
    {disposition : Disposition}
    (found : volume.reach now name disposition = some (node, reached))
    (fresh : reached.lastHandle + 1 < Word.limit)
    (numbered : Numbered { reached with
      lastHandle := reached.lastHandle + 1
      handles := reached.handles ++ [(reached.lastHandle + 1, name)] }) :
    Represents { reached with
        lastHandle := reached.lastHandle + 1
        handles := reached.handles ++ [(reached.lastHandle + 1, name)] }
      (store.open_ name node.stored (UInt64.ofNat (reached.lastHandle + 1))) := by
  obtain ⟨handles, last, lastIndex⟩ := handles_reached found
  have files := file?_reached found
  have held : reached.file? name = some node := by rw [files, Function.update_self]
  have word : (UInt64.ofNat (reached.lastHandle + 1)).toNat = reached.lastHandle + 1 :=
    UInt64.toNat_ofNat_of_lt' fresh
  have index : (UInt64.ofNat node.index).toNat ≤ reached.lastIndex :=
    Nat.le_trans (Nat.mod_le _ _) (numbered.index_le held)
  have shown : reached.Shows (store.put name (some node.stored)) :=
    represents.toShows.put files handles
  refine ⟨⟨shown.files, fun handle => ?_⟩, numbered, fun key member => ?_⟩
  · change Function.update store.handles _ _ handle = List.lookup _ (_ ++ _)
    rw [lookup_handles_opened represents.numbered.toLawful found, Function.update_apply,
      represents.handles]
    simp only [← UInt64.toNat_inj, word]
  · change _ ≤ reached.lastHandle + 1 ∧ _ ≤ reached.lastIndex
    rcases List.mem_cons.1 member with rfl | before
    · exact ⟨Nat.le_of_eq word, index⟩
    · obtain ⟨handle, index⟩ := represents.issued key before
      exact ⟨by omega, Nat.le_trans index lastIndex⟩

/-- A closed handle is found no more; all others are found as before. -/
theorem Represents.close (represents : volume.Represents store) (file : FileKey)
    (numbered : (volume.close file).Numbered) :
    (volume.close file).Represents (store.close file.handle) where
  files := represents.files
  numbered := numbered
  issued := represents.issued
  handles handle := by
    change Function.update store.handles _ _ handle = List.lookup _ (List.filter _ _)
    rw [lookup_filter_ne, Function.update_apply, represents.handles]
    simp only [UInt64.toNat_inj]

/-- What a volume grants, the store grants alike. -/
theorem serves_of_fulfils (represents : volume.Represents store) (lawful : after.Lawful)
    (fulfils : volume.Fulfils now request response after) :
    ∃ next, store.Serves request response next ∧ after.Represents next := by
  have numbered := represents.numbered.fulfils lawful fulfils
  cases fulfils with
  | @opened options name disposition node reached command named known allowed found fresh =>
    have held : reached.file? name = some node := by
      rw [file?_reached found, Function.update_self]
    exact ⟨_, serves_of_opened represents command named known allowed found fresh
      (lawful.files _ (mem_files_of_file? held)), represents.open_ found fresh numbered⟩
  | told used held tells => exact ⟨store, serves_of_tells represents held used tells, represents⟩
  | @changed file name node changed _ used held takes total =>
    have files := file?_changed (node?_eq_ok.1 held).2 changed total
    have short : changed.size ≤ FileNode.longest :=
      lawful.file (by rw [files, Function.update_self])
    exact ⟨_, serves_of_takes represents held used takes short,
      represents.put files rfl numbered rfl rfl⟩
  | @kept file fileName delete command stays =>
    refine ⟨store, ?_, represents⟩
    simp only [Store.Serves, command, Store.CleansUp, behind_eq represents.toShows]
    cases held : volume.node? file with
    | error status => exact ⟨trivial, trivial⟩
    | ok found =>
      have idle := stays found.1 found.2 held
      refine ⟨trivial, (if_neg ?_).symm⟩
      simpa [FileNode.stored] using idle
  | @removed file fileName delete name node command held goes total =>
    have files := file?_removed volume name total
    refine ⟨store.put name none, ?_, represents.put files rfl numbered rfl rfl⟩
    simp only [Store.Serves, command, Store.CleansUp, behind_of_held represents.toShows held]
    refine ⟨trivial, (if_pos ?_).symm⟩
    simpa [FileNode.stored] using goes
  | closed command =>
    exact ⟨_, by simp [Store.Serves, command], represents.close _ numbered⟩
  | described command fits =>
    refine ⟨store, ?_, represents⟩
    simp only [Store.Serves, command]
    exact ⟨.inr rfl, trivial⟩
  | shutdown command => exact ⟨store, by simp [Store.Serves, command], represents⟩

/-- One request: what a volume answers the store answers, and they hold the same again. -/
theorem Represents.sends (represents : volume.Represents store)
    (sends : volume.Sends now request response after) :
    ∃ next, store.Serves request response next ∧ after.Represents next := by
  cases course_of_sends sends with
  | refused refuses => exact ⟨store, serves_of_refuses represents.toShows refuses, represents⟩
  | granted fulfils =>
    exact serves_of_fulfils represents (represents.numbered.sends sends).toLawful fulfils

/-- What was written is read back through any handle for the file, if it is anything at all and fits
a response. -/
theorem written_reads_back (numbered : volume.Numbered)
    (writes : volume.Sends now request response after) {offset : UInt64} {data : Region}
    {key : UInt32} {constrained : Bool} {bytes : Bytes}
    (writing : request.command = .write file offset data key constrained)
    (resolved : request.resolve data = .ok bytes) (granted : response.status.isSuccess = true)
    {later : UInt64} {asked : Request} {answer : Response} {last : Volume}
    (reads : after.Sends later asked answer last) {other : FileKey} {length key' : UInt32}
    (reading : asked.command = .read other offset length key')
    (same : volume.nameOf? other = volume.nameOf? file) (whole : length.toNat = bytes.length)
    (something : bytes ≠ [])
    (fits : Response.fixedSize + bytes.length ≤ asked.revision.messageLimit) :
    answer.status = .success ∧ answer.data = .ok bytes := by
  cases (course_of_sends writes).fulfils granted with
  | @changed _ name node _ _ used held takes total =>
    rw [writing] at used
    cases used
    cases takes with
    | write command resolved' within =>
      cases writing.symm.trans command
      cases resolved.symm.trans resolved'
      obtain ⟨named, found⟩ := node?_eq_ok.1 held
      let fresh := node.written now offset.toNat bytes
      have files := file?_changed found fresh total
      have held' : node? { volume.setFile name fresh with used := total } other
          = .ok (name, fresh) :=
        node?_eq_ok.2 ⟨same.trans named, by rw [files, Function.update_self]⟩
      have represents := (numbered.sends writes).represents
      have behind := behind_of_held represents.toShows held'
      obtain ⟨next, serves, -⟩ := represents.sends reads
      have kept : fresh.stored = node.stored.write offset.toNat bytes := rfl
      have long := StoredFile.le_length_write node.stored offset.toNat bytes
      have positive := List.length_pos_iff.2 something
      have inside : ¬ (node.stored.write offset.toNat bytes).bytes.length ≤ offset.toNat := by
        omega
      simp only [Store.Serves, reading, Store.Reads, behind, kept, whole,
        StoredFile.take_drop_write, if_neg inside, if_neg (Nat.not_lt.2 fits)] at serves
      exact ⟨serves.1, serves.2.2.1⟩
    | endOfFile command | disposition command | basic command | allocation command =>
      cases writing.symm.trans command
  | told _ _ tells =>
    cases tells with
    | read command | queryInformation command | flushBuffers command =>
      cases writing.symm.trans command
  | opened command | kept command | removed command | closed command | described command
    | shutdown command => cases writing.symm.trans command

end Steps

/-! ### Runs -/

/-- Beside a run of a volume a store can be kept: it gives every request the response that the
volume gave it, and holds what the volume holds each time. -/
def FollowedBy (store : Store) : List Turn → Prop
  | [] => True
  | turn :: rest =>
    ∃ next, store.Serves turn.request turn.response next ∧ turn.after.Shows next ∧
      FollowedBy next rest

theorem Represents.runs {volume : Volume} {store : Store} (represents : volume.Represents store)
    {turns : List Turn} (runs : volume.Runs turns) : FollowedBy store turns := by
  induction turns generalizing volume store with
  | nil => trivial
  | cons turn rest ih =>
    obtain ⟨⟨now, sends⟩, onward⟩ := runs
    obtain ⟨next, serves, represents'⟩ := represents.sends sends
    exact ⟨next, serves, represents'.toShows, ih represents' onward⟩

/-- A volume that starts empty is a store that starts empty: over any run of requests that are
answered, each response is one the store gives, and the volume holds what the store then holds. -/
theorem volume_is_store (label : String) (size created : UInt64) (turns : List Turn)
    (runs : (new label size.toNat created).Runs turns) : FollowedBy .empty turns :=
  (represents_new label size created).runs runs

/-- A write behind the end of a file fills the gap before it with zeros. -/
def writtenBehind : Turn where
  request := ⟨.v1, ⟨2⟩, .write ⟨1, 1⟩ 2 ⟨80, 1⟩ 0 false, [7]⟩
  response := ⟨.v1, ⟨2⟩, ⟨.success, 1⟩, .write { blank 1 with data := [0, 0, 7] }.info, []⟩
  after := holding (some { blank 1 with data := [0, 0, 7] }) 1 1

theorem volume_is_store_gap : FollowedBy .empty [openedA 1 1, writtenBehind] :=
  volume_is_store "" 16 0 _ ⟨⟨0, _, by rfl, by rfl⟩, ⟨0, _, by rfl, by rfl⟩, trivial⟩

end Volume
end FileBroker
