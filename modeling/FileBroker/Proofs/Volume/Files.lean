import FileBroker.Proofs.Response.Validation
import FileBroker.Proofs.Volume.Lawful

/-!
What the user of a file gets from a volume, request by request. A file that was opened is found
under the handle it was opened with, holds what was written at its front before what it held
beyond, and reads back so. Closing takes back the handle.
-/
namespace FileBroker.Volume

/-- The volume grants a request, with a response that its caller can be given. -/
structure Grants (volume : Volume) (now : UInt64) (request : Request) (response : Response)
    (after : Volume) : Prop where
  step : ∃ information draft,
    volume.step now request (.ofRequest request) = some (.ok (information, draft), after) ∧
    (draft.setStatus .success information).build = .ok response
  valid : response.validate request = .ok ()

variable {volume after : Volume} {now : UInt64} {request : Request} {response : Response}
  {file : FileKey} {name : String} {node : FileNode}

theorem Grants.lawful (grants : volume.Grants now request response after)
    (lawful : volume.Lawful) : after.Lawful := by
  obtain ⟨information, draft, done, -⟩ := grants.step
  exact (keeps_step lawful .start now _ _ done).lawful

theorem answered_of_kind {draft : Response.Draft} {answer : Answer}
    (same : answer.kind = draft.kind) (information : Nat) :
    answered draft information answer = .ok (UInt64.ofNat information, { draft with answer }) := by
  unfold answered Response.Draft.setAnswer
  rw [if_neg (Decidable.not_not.2 same)]

/-- A success without data may be sent to every request that bounds no data. -/
theorem validate_bare {information : Nat} {answer : Answer} (kind : answer.kind = request.kind)
    (bare : answer.dataRegion = none) (unbounded : request.command.requestedLength = none)
    (allowed : ∀ limit, Response.limitFor request.command = some limit → information ≤ limit) :
    Response.validate
      ⟨request.revision, request.hint, ⟨.success, UInt64.ofNat information⟩, answer, []⟩ request
      = .ok () := by
  refine Response.validate_eq_ok.2 ⟨kind, .inl rfl, fun limit bounded => ?_, fun asked => ?_⟩
  · constructor
    · simp [Response.dataSize, bare]
    · exact Nat.le_trans (Nat.mod_le _ _) (allowed limit bounded)
  · rw [unbounded] at asked
    cases asked

/-- An answer without data may be given for every request that bounds no data. -/
theorem grants_of_bare {information : Nat} {answer : Answer} (kind : answer.kind = request.kind)
    (bare : answer.dataRegion = none) (unbounded : request.command.requestedLength = none)
    (allowed : ∀ limit, Response.limitFor request.command = some limit → information ≤ limit)
    (step : volume.step now request (.ofRequest request)
      = some (answered (.ofRequest request) information answer, after)) :
    volume.Grants now request
      ⟨request.revision, request.hint, ⟨.success, UInt64.ofNat information⟩, answer, []⟩
      after where
  step := by
    have same : answer.kind = (Response.Draft.ofRequest request).kind :=
      kind.trans (Answer.kind_empty request.kind).symm
    rw [answered_of_kind same] at step
    refine ⟨_, _, step, Response.Draft.build_eq_ok.2 ⟨?_, rfl⟩⟩
    change Response.checkRegion answer _ = .ok ()
    unfold Response.checkRegion
    rw [bare]
  valid := validate_bare kind bare unbounded allowed

/-! ### Files -/

/-- What the file of a name holds; nothing if there is no such file. -/
def contents (volume : Volume) (name : String) : Bytes :=
  ((volume.file? name).map FileNode.data).getD []

/-- What a volume needs to take a round of so many bytes: space to grow the file by, and numbers for
one more handle and one more file. -/
structure HasRoom (volume : Volume) (name : String) (length : Nat) :
    Prop where
  space : volume.used + (length - (volume.contents name).length) ≤ volume.size
  handles : volume.lastHandle + 1 < Word.limit
  indices : volume.lastIndex + 1 < Word.limit

theorem file?_setFile (held : volume.file? name = some node) (changed : FileNode) :
    (volume.setFile name changed).file? name = some changed := by
  obtain ⟨before, rest, whole, absent⟩ := List.lookup_eq_some_iff.1 held
  refine List.lookup_eq_some_iff.2
    ⟨before.map fun entry => if entry.1 == name then (name, changed) else entry,
      rest.map fun entry => if entry.1 == name then (name, changed) else entry, ?_, ?_⟩
  · simp [setFile, whole]
  · intro entry member
    obtain ⟨old, found, rfl⟩ := List.mem_map.1 member
    have other : old.1 ≠ name := fun same => by simpa [same] using absent old found
    simpa [other] using absent old found

/-- Whoever holds a handle to a file finds what was written to it. -/
theorem node?_setFile (held : volume.node? file = .ok (name, node)) (changed : FileNode)
    (used : Nat) :
    node? { volume.setFile name changed with used } file = .ok (name, changed) := by
  obtain ⟨named, found⟩ := node?_eq_ok.1 held
  exact node?_eq_ok.2 ⟨named, file?_setFile found changed⟩

/-! ### A plain user -/

/-- The file that an open reaches holds what it held, and nothing if it is new. -/
theorem reach_openOrCreate (indices : volume.lastIndex + 1 < Word.limit) (name : String) :
    ∃ node files lastIndex,
      volume.reach now name .openOrCreate
        = some (node, { volume with files := files, lastIndex := lastIndex }) ∧
      files.lookup name = some node ∧ node.data = volume.contents name := by
  unfold reach contents
  cases held : volume.file? name with
  | none =>
    have next : Word.add? volume.lastIndex 1 = some (volume.lastIndex + 1) :=
      Word.check?_eq_some_iff.2 ⟨indices, rfl⟩
    rw [next]
    refine ⟨_, _, _, rfl, ?_, rfl⟩
    rw [List.lookup_append]
    change (volume.file? name).or _ = _
    rw [held]
    simp
  | some node => exact ⟨node, volume.files, volume.lastIndex, rfl, held, rfl⟩

theorem Disposition.ofOptions?_toOptions (disposition : Disposition) :
    ofOptions? disposition.toOptions = some disposition := by
  cases disposition <;> decide

/-- An open gives a handle of its own, under which the file is found. -/
theorem grants_open (now : UInt64) (request : Request) (lawful : volume.Lawful)
    {options : OpenOptions} (command : request.command = .create options)
    (named : request.resolveText options.fileName = .ok name)
    (disposition : Disposition.ofOptions? options.options = some .openOrCreate)
    (handles : volume.lastHandle + 1 < Word.limit) (indices : volume.lastIndex + 1 < Word.limit) :
    ∃ file info node after,
      volume.Grants now request
        ⟨request.revision, request.hint, ⟨.success, 0⟩,
          .create file options.desiredAccess info, []⟩ after ∧
      file.handle.toNat = volume.lastHandle + 1 ∧
      after.handles = volume.handles ++ [(volume.lastHandle + 1, name)] ∧
      after.node? file = .ok (name, node) ∧ node.data = volume.contents name ∧
      after.used = volume.used ∧ after.size = volume.size := by
  obtain ⟨node, files, lastIndex, reached, held, data⟩ := reach_openOrCreate indices name
  have next : Word.add? volume.lastHandle 1 = some (volume.lastHandle + 1) :=
    Word.check?_eq_some_iff.2 ⟨handles, rfl⟩
  have key : (UInt64.ofNat (volume.lastHandle + 1)).toNat = volume.lastHandle + 1 :=
    UInt64.toNat_ofNat_of_lt' handles
  refine ⟨⟨UInt64.ofNat (volume.lastHandle + 1), UInt64.ofNat node.index⟩, node.info, node,
    { volume with
      files, lastIndex
      lastHandle := volume.lastHandle + 1
      handles := volume.handles ++ [(volume.lastHandle + 1, name)] }, ?_, key, rfl, ?_, data, rfl,
    rfl⟩
  · refine grants_of_bare (congrArg Command.kind command).symm rfl
      (by rw [command]; rfl) (by rw [command]; nofun) ?_
    unfold step create
    rw [command]
    dsimp only
    rw [named, disposition]
    dsimp only [Disposition.refusal]
    rw [reached]
    dsimp only [Option.bind_eq_bind, Option.bind_some]
    rw [next]
    rfl
  · refine node?_eq_ok.2 ⟨?_, held⟩
    change List.lookup (UInt64.ofNat (volume.lastHandle + 1)).toNat _ = _
    rw [key, List.lookup_append, List.lookup_eq_none_iff.2]
    · simp
    · intro entry member
      have before := lawful.handles entry member
      simp
      omega

/-- A file can be cut or filled to any size that it can have. -/
theorem resize?_of_le (node : FileNode) {size : Nat} (short : size ≤ FileNode.longest) :
    ∃ resized, node.resize? size = some resized ∧
      (node.size ≤ size → resized.data = node.data ++ List.replicate (size - node.size) 0) := by
  unfold FileNode.resize?
  rw [if_pos short]
  refine ⟨_, rfl, fun grows => ?_⟩
  dsimp only
  split
  · next cut =>
    have same : size = node.size := Nat.le_antisymm cut grows
    rw [same, Nat.sub_self, List.replicate_zero, List.append_nil]
    exact List.take_length
  · rfl

/-- Filled up far enough, a file takes bytes at its front, and what it held beyond stays. -/
theorem overwrite_front (old bytes : Bytes) :
    Bytes.overwrite (old ++ List.replicate (max bytes.length old.length - old.length) 0) 0 bytes
      = bytes ++ old.drop bytes.length := by
  have filled : (List.replicate (max bytes.length old.length - old.length) (0 : UInt8)).drop
      (bytes.length - old.length) = [] := by
    rw [List.drop_eq_nil_iff, List.length_replicate]
    omega
  rw [Bytes.overwrite, List.take_zero, List.nil_append, Nat.zero_add, List.drop_append, filled,
    List.append_nil]

/-- What is written from the start of a file stands before what the file held beyond. -/
theorem grants_write (now : UInt64) (request : Request) (lawful : volume.Lawful) {data : Region}
    {key : UInt32} {constrained : Bool} {bytes : Bytes}
    (command : request.command = .write file 0 data key constrained)
    (resolved : request.resolve data = .ok bytes) (held : volume.node? file = .ok (name, node))
    (space : volume.used + (bytes.length - node.size) ≤ volume.size) :
    ∃ info changed after,
      volume.Grants now request
        ⟨request.revision, request.hint, ⟨.success, UInt64.ofNat bytes.length⟩, .write info, []⟩
        after ∧
      after.node? file = .ok (name, changed) ∧
      changed.data = bytes ++ node.data.drop bytes.length ∧ after.handles = volume.handles := by
  have length : bytes.length = data.size.toNat := Region.length_resolveTrailing resolved
  have small : bytes.length < 65536 := length ▸ data.size.toNat_lt
  have short : max bytes.length node.size ≤ FileNode.longest := by
    have before := lawful.open_file held
    have bound : 65536 ≤ FileNode.longest := by decide
    omega
  have within : Word.add? 0 bytes.length = some bytes.length := by
    refine Word.check?_eq_some_iff.2 ⟨?_, Nat.zero_add _⟩
    have bound : 65536 < Word.limit := by decide
    omega
  have used : Word.add? volume.used (bytes.length - node.size)
      = some (volume.used + (bytes.length - node.size)) :=
    Word.check?_eq_some_iff.2 ⟨Nat.lt_of_le_of_lt space lawful.size, rfl⟩
  obtain ⟨grown, resized, filled⟩ := resize?_of_le node short
  let changed : FileNode :=
    { grown with data := Bytes.overwrite grown.data 0 bytes, modified := now }
  refine ⟨changed.info, changed,
    { volume.setFile name changed with used := volume.used + (bytes.length - node.size) },
    grants_of_bare (congrArg Command.kind command).symm rfl (by rw [command]; rfl) ?_ ?_,
    node?_setFile held changed _, ?_, rfl⟩
  · intro limit bounded
    rw [command] at bounded
    cases bounded
    exact Nat.le_of_eq length
  · unfold step
    rw [command]
    dsimp only
    rw [resolved]
    change volume.write now file 0 bytes (.ofRequest request) = _
    unfold write
    rw [held]
    dsimp only
    rw [within]
    dsimp only
    rw [used]
    dsimp only [Option.bind_eq_bind, Option.bind_some]
    rw [if_neg (Nat.not_lt.2 space), resized]
    rfl
  · change Bytes.overwrite grown.data 0 bytes = _
    rw [filled (Nat.le_max_right _ _)]
    exact overwrite_front node.data bytes

/-- The response to a successful read. -/
def readResponse (request : Request) (bytes : Bytes) : Response where
  revision := request.revision
  hint := request.hint
  io := ⟨.success, UInt64.ofNat bytes.length⟩
  answer := .read ⟨UInt16.ofNat Response.fixedSize, UInt16.ofNat bytes.length⟩
  trailing := bytes

theorem information_readResponse (request : Request) {bytes : Bytes}
    (short : Response.fixedSize + bytes.length < UInt16.size) :
    (readResponse request bytes).io.information.toNat = bytes.length :=
  UInt64.toNat_ofNat_of_lt' (by
    have small : UInt16.size < UInt64.size := by decide
    omega)

theorem readResponse_spec (request : Request) {offset : UInt64} {length key : UInt32}
    {bytes : Bytes} (command : request.command = .read file offset length key)
    (short : Response.fixedSize + bytes.length < UInt16.size)
    (asked : bytes.length ≤ length.toNat) :
    (readResponse request bytes).data = .ok bytes ∧
      (readResponse request bytes).validate request = .ok () := by
  have data : (readResponse request bytes).data = .ok bytes := Region.resolveTrailing_whole short
  have size : (readResponse request bytes).dataSize = bytes.length :=
    (Region.length_resolveTrailing data).symm
  have word := information_readResponse request short
  have kind : request.kind = .read := congrArg Command.kind command
  refine ⟨data, Response.validate_eq_ok.2 ⟨kind.symm, .inl rfl, fun limit bounded => ?_, ?_⟩⟩
  · rw [command] at bounded
    cases bounded
    rw [size, word]
    exact ⟨asked, asked⟩
  · exact fun _ _ => word.trans size.symm

/-- What stands at the front of a file can be read from its start, if a response has room for it. -/
theorem grants_read (now : UInt64) (request : Request) {length key : UInt32} {bytes : Bytes}
    (command : request.command = .read file 0 length key)
    (held : volume.node? file = .ok (name, node)) (front : bytes <+: node.data)
    (some' : bytes ≠ []) (asked : length.toNat = bytes.length)
    (short : Response.fixedSize + bytes.length ≤ request.revision.messageLimit) :
    volume.Grants now request (readResponse request bytes) volume := by
  have kind : request.kind = .read := congrArg Command.kind command
  have room := Revision.lt_word short
  refine ⟨?_, (readResponse_spec request command room (Nat.le_of_eq asked.symm)).2⟩
  have within : bytes.length ≤ node.size := front.length_le
  have filled : ¬ node.size ≤ 0 := by
    have nonempty := List.length_pos_iff.2 some'
    omega
  have stop : Word.add? 0 length.toNat = some length.toNat := by
    refine Word.check?_eq_some_iff.2 ⟨?_, Nat.zero_add _⟩
    have limit : Word.limit = 18446744073709551616 := rfl
    have small := length.toNat_lt
    omega
  have chunk : (node.data.drop 0).take (min node.size length.toNat - 0) = bytes := by
    rw [List.drop_zero, asked, Nat.sub_zero, Nat.min_eq_right within]
    exact (List.prefix_iff_eq_take.1 front).symm
  let region : Region := ⟨UInt16.ofNat Response.fixedSize, UInt16.ofNat bytes.length⟩
  let draft : Response.Draft := { Response.Draft.ofRequest request with trailing := bytes }
  have appended : (Response.Draft.ofRequest request).append bytes = .ok (region, draft) := by
    unfold Response.Draft.append
    exact if_neg (Nat.not_lt.2 short)
  have answer : answered draft bytes.length (.read region)
      = .ok (UInt64.ofNat bytes.length, { draft with answer := .read region }) := by
    refine answered_of_kind ?_ _
    change Kind.read = (Answer.empty request.kind).kind
    rw [Answer.kind_empty, kind]
  refine ⟨UInt64.ofNat bytes.length, { draft with answer := .read region }, ?_,
    Response.Draft.build_eq_ok.2 ⟨Region.check_whole room, rfl⟩⟩
  unfold step
  rw [command]
  change volume.read file 0 length.toNat (.ofRequest request) = _
  unfold read
  rw [held]
  dsimp only
  rw [if_neg filled, stop]
  dsimp only [Option.bind_eq_bind, Option.bind_some]
  rw [chunk, appended]
  dsimp only
  rw [answer]
  rfl

/-- The size that is reported for a file is at least the length of what stands at its front. -/
theorem grants_queryInformation (now : UInt64) (request : Request) (lawful : volume.Lawful)
    (command : request.command = .queryInformation file)
    (held : volume.node? file = .ok (name, node)) :
    ∃ info, volume.Grants now request
        ⟨request.revision, request.hint, ⟨.success, 0⟩, .queryInformation info, []⟩ volume ∧
      info.fileSize.toNat = node.data.length := by
  refine ⟨node.info, grants_of_bare (congrArg Command.kind command).symm rfl
    (by rw [command]; rfl) (by rw [command]; nofun) ?_, ?_⟩
  · unfold step
    rw [command]
    dsimp only
    unfold queried
    rw [held]
  · have short := lawful.open_file held
    have bound : FileNode.longest < UInt64.size := by decide
    exact UInt64.toNat_ofNat_of_lt' (Nat.lt_of_le_of_lt short bound)

/-- The handle that was given out last is the only one of its number. -/
theorem Lawful.filter_handles (lawful : volume.Lawful) (name : String) :
    (volume.handles ++ [(volume.lastHandle + 1, name)]).filter
        (fun entry => entry.1 != volume.lastHandle + 1) = volume.handles := by
  rw [List.filter_append, List.filter_eq_self.2]
  · simp
  · intro entry member
    have before := lawful.handles entry member
    simp
    omega

/-- Closing takes back the handle, and nothing else. -/
theorem grants_close (now : UInt64) (request : Request) (volume : Volume)
    (command : request.command = .close file) :
    volume.Grants now request
      ⟨request.revision, request.hint, ⟨.success, 0⟩, .close, []⟩ (volume.close file) := by
  refine grants_of_bare (congrArg Command.kind command).symm rfl
    (by rw [command]; rfl) (by rw [command]; nofun) ?_
  have kind : request.kind = .close := congrArg Command.kind command
  have same : Answer.close.kind = (Response.Draft.ofRequest request).kind := by
    change _ = (Answer.empty request.kind).kind
    rw [kind]
    rfl
  rw [answered_of_kind same]
  unfold step Response.Draft.ofRequest Response.Draft.new
  rw [command, kind]
  rfl

end FileBroker.Volume
