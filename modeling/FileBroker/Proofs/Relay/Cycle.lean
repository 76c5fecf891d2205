import FileBroker.Proofs.Relay.Calls
import FileBroker.Proofs.Request.Format
import FileBroker.Relay.Workload
import Mathlib.Data.Nat.Digits.Defs
import Mathlib.Data.String.Basic

/-!
A round of the workload: open, write, read back, query, close. The requests are built for the
current revision whatever the session speaks, so that every round succeeds on a session of that
revision, and none gets past its first request on any other.
-/
namespace FileBroker

/-! ### Names -/

theorem Text.toList_loop (bytes : ByteArray) (i : Nat) (front : List UInt8) :
    ByteArray.toList.loop bytes i front = front.reverse ++ bytes.data.toList.drop i := by
  fun_induction ByteArray.toList.loop bytes i front with
  | case1 i front more ih =>
    have within : i < bytes.data.toList.length := by
      rw [Array.length_toList]
      exact more
    have first : bytes.get! i = bytes.data.toList[i] := getElem!_pos bytes.data i more
    rw [ih, List.reverse_cons, List.append_assoc, List.drop_eq_getElem_cons within, first]
    rfl
  | case2 i front done =>
    have past : bytes.data.toList.length ≤ i := by
      rw [Array.length_toList]
      exact Nat.not_lt.1 done
    rw [List.drop_eq_nil_of_le past, List.append_nil]

theorem Text.toList_eq (bytes : ByteArray) : bytes.toList = bytes.data.toList :=
  Text.toList_loop bytes 0 []

theorem Text.fromUTF8?_bytes (text : String) :
    String.fromUTF8? ⟨text.toUTF8.toList.toArray⟩ = some text := by
  have same : (⟨text.toUTF8.toList.toArray⟩ : ByteArray) = text.toByteArray := by
    rw [Text.toList_eq]
    rfl
  rw [same]
  unfold String.fromUTF8?
  rw [dif_pos text.isValidUTF8]
  rfl

theorem Text.length_bytes (text : String) : text.toUTF8.toList.length = text.utf8ByteSize := by
  rw [Text.toList_eq, Array.length_toList]
  rfl

namespace Workload

theorem utf8Len_le (text : List Char) : String.utf8Len text ≤ 4 * text.length := by
  induction text with
  | nil => exact Nat.le_refl _
  | cons c rest ih =>
    have four := c.utf8Size_le_four
    rw [String.utf8Len, List.length_cons]
    omega

/-- The name of a producer's file fits every message. -/
theorem size_fileName {producer : Nat} (word : producer < Word.limit) :
    (fileName producer).toUTF8.toList.length ≤ 94 := by
  have digits : (Nat.toDigits 10 producer).length ≤ 20 :=
    Nat.toDigits_length 10 producer 20 (by decide) (Nat.lt_trans word (by decide))
  have bytes := utf8Len_le (Nat.toDigits 10 producer)
  rw [Text.length_bytes]
  unfold fileName
  change ("\\producer-" ++ String.ofList (Nat.toDigits 10 producer) ++ ".bin").utf8ByteSize ≤ 94
  rw [String.utf8ByteSize_append, String.utf8ByteSize_append,
    String.utf8ByteSize_ofList (Nat.toDigits 10 producer)]
  have front : ("\\producer-" : String).utf8ByteSize = 10 := rfl
  have back : (".bin" : String).utf8ByteSize = 4 := rfl
  omega

/-! ### Requests -/

/-- The region that names all bytes of a request's trailing buffer. -/
def wholeRegion (bytes : Bytes) : Region :=
  ⟨UInt16.ofNat Request.fixedSize, UInt16.ofNat bytes.length⟩

theorem resolve_wholeRegion {bytes : Bytes} (short : bytes.length ≤ 16240) :
    (wholeRegion bytes).resolveTrailing bytes Request.fixedSize = .ok bytes :=
  Region.resolveTrailing_whole (by
    change 80 + bytes.length < 65536
    omega)

/-- A request around bytes that are not too many is built, and keeps every bound. -/
theorem requestWith_eq_ok {bytes : Bytes} (short : bytes.length ≤ 16240)
    (command : Region → Command)
    (names : ∀ region ∈ (command (wholeRegion bytes)).regions,
      region = wholeRegion bytes ∨ region.size = 0) :
    requestWith bytes command = .ok ⟨.v1, ⟨0⟩, command (wholeRegion bytes), bytes⟩ ∧
      Request.WellFormed ⟨.v1, ⟨0⟩, command (wholeRegion bytes), bytes⟩ := by
  have fits : Request.fixedSize + bytes.length ≤ Revision.v1.messageLimit := by
    change 80 + bytes.length ≤ 16320
    omega
  have checked : Request.checkRegions (command (wholeRegion bytes))
      (Request.fixedSize + bytes.length) = .ok () := by
    refine Request.checkRegions_eq_ok.2 fun region member => ?_
    rcases names region member with rfl | nothing
    · exact Region.check_whole (by
        change 80 + bytes.length < 65536
        omega)
    · exact Region.check_eq_ok.2 (.inl nothing)
  have appended : (Request.Draft.new .current).append bytes
      = .ok (wholeRegion bytes, ⟨.v1, bytes⟩) := by
    unfold Request.Draft.append
    exact if_neg (Nat.not_lt.2 fits)
  refine ⟨?_, fits, checked⟩
  unfold requestWith
  rw [appended]
  exact Request.Draft.build_eq_ok.2 ⟨checked, rfl⟩

/-- So is a request that carries no bytes. -/
theorem request_eq_ok (command : Command) (plain : command.regions = []) :
    request command = .ok ⟨.v1, ⟨0⟩, command, []⟩ ∧
      Request.WellFormed ⟨.v1, ⟨0⟩, command, []⟩ := by
  have checked : Request.checkRegions command (Request.fixedSize + 0) = .ok () := by
    refine Request.checkRegions_eq_ok.2 fun region member => ?_
    rw [plain] at member
    cases member
  exact ⟨Request.Draft.build_eq_ok.2 ⟨checked, rfl⟩, show 80 + 0 ≤ 16320 by decide, checked⟩

/-! ### Steps of a producer -/

theorem run_bind_ok {α β : Type} {first : Run α} {next : α → Run β} {state middle : State}
    {value : α} (ran : first.run state = (.ok value, middle)) :
    (first >>= next).run state = (next value).run middle := by
  change StateT.bind first.run (ExceptT.bindCont next) state = _
  unfold StateT.bind
  rw [ran]
  rfl

theorem run_bind_error {α β : Type} {first : Run α} {next : α → Run β} {state middle : State}
    {failure : Failure} (ran : first.run state = (.error failure, middle)) :
    (first >>= next).run state = (.error failure, middle) := by
  change StateT.bind first.run (ExceptT.bindCont next) state = _
  unfold StateT.bind
  rw [ran]
  rfl

theorem run_get_bind {α : Type} (state : State) (next : State → Run α) :
    ((get : Run State) >>= next).run state = (next state).run state :=
  run_bind_ok rfl

theorem run_formatted {α : Type} {value : α} (state : State) :
    (formatted (.ok value) : Run α).run state = (.ok value, state) := rfl

theorem run_call_ok {state : State} {request : Request} {hint : Hint} {response : Response}
    {relay : Relay}
    (granted : state.relay.call state.ticks request = (.ok (hint, .ok response), relay)) :
    (call request).run state
      = (.ok response, { state with
          relay, tally := { state.tally with operations := state.tally.operations + 1 } }) := by
  refine (run_get_bind state _).trans ?_
  rw [granted]
  rfl

theorem run_call_error {state : State} {request : Request} {failure : Failure} {relay : Relay}
    (refused : state.relay.call state.ticks request = (.error failure, relay)) :
    (call request).run state = (.error failure, { state with relay }) := by
  refine (run_get_bind state _).trans ?_
  rw [refused]
  rfl

theorem run_lift {α : Type} {body : Run α} {state middle : State} {result : Except Failure α}
    (ran : body.run state = (result, middle)) :
    (ExceptT.lift body.run : Run (Except Failure α)).run state = (.ok result, middle) := by
  change StateT.map Except.ok body.run state = _
  unfold StateT.map
  rw [ran]
  rfl

/-! ### On a session of the current revision -/

/-- However it was used, the relay is between two calls, on a session that speaks the revision that
requests are built for. -/
structure Current (start relay : Relay) : Prop where
  reached : Relay.Reached start relay
  rest : relay.AtRest
  lawful : relay.volume.Lawful
  spoken : relay.worker.revision = .v1

variable {start relay : Relay} {clock : Nat → UInt64}

/-- A request that is built and granted: its caller goes on with the response, one operation
later. -/
structure Performs (start relay : Relay) (clock : Nat → UInt64)
    (built : Except FormatError Request) (response : Response) (after : Relay) : Prop where
  current : Current start after
  run : ∀ {α : Type} (tally : Tally) (next : Response → Run α),
    (formatted built >>= fun request => call request >>= next).run ⟨relay, tally, clock⟩
      = (next response).run ⟨after, { tally with operations := tally.operations + 1 }, clock⟩

theorem Current.performs (current : Current start relay) {built : Except FormatError Request}
    {request : Request} (builds : built = .ok request ∧ request.WellFormed)
    (spoken : request.revision = .v1) {response : Response} {volume : Volume}
    (grants : relay.volume.Grants (clock relay.session.broker.nextHint) (relay.received request)
      response volume) :
    ∃ after, Performs start relay clock built response after ∧ after.volume = volume := by
  obtain ⟨rfl, formed⟩ := builds
  obtain ⟨hint, after, granted, rest, revision, same⟩ := current.rest.call_of_grants
    current.lawful formed (spoken.trans current.spoken.symm) grants
  have reached := current.reached.call (clock relay.session.broker.nextHint) request formed
  rw [granted] at reached
  have lawful : after.volume.Lawful := same ▸ grants.lawful current.lawful
  refine ⟨after, ⟨⟨reached, rest, lawful, revision.trans current.spoken⟩, ?_⟩, same⟩
  intro α tally next
  refine (run_bind_ok (run_formatted _)).trans ?_
  exact run_bind_ok (run_call_ok granted)

/-! ### The requests of a round -/

section Requests

variable (clock)

/-- What is written to an open file stands at its front. -/
theorem Current.write (current : Current start relay) {file : FileKey} {name : String}
    {node : FileNode} (held : relay.volume.node? file = .ok (name, node)) {payload : Bytes}
    (short : payload.length ≤ 16240)
    (space : relay.volume.used + (payload.length - node.size) ≤ relay.volume.size) :
    ∃ response changed after,
      Performs start relay clock (requestWith payload fun data => .write file 0 data 0 false)
        response after ∧
      after.volume.node? file = .ok (name, changed) ∧ payload <+: changed.data ∧
      after.volume.handles = relay.volume.handles := by
  have builds := requestWith_eq_ok short (fun data => .write file 0 data 0 false)
    fun region member => .inl (List.mem_singleton.1 member)
  obtain ⟨info, changed, written, grants, held', data, handles⟩ := Volume.grants_write _
    (relay.received ⟨.v1, ⟨0⟩, _, payload⟩) current.lawful rfl (resolve_wholeRegion short) held
    space
  obtain ⟨after, performs, same⟩ := current.performs builds rfl grants
  rw [← same] at held' handles
  exact ⟨_, changed, after, performs, held', data ▸ List.prefix_append _ _, handles⟩

/-- What stands at the front of an open file is read from it. -/
theorem Current.read (current : Current start relay) {file : FileKey} {name : String}
    {node : FileNode} (held : relay.volume.node? file = .ok (name, node)) {payload : Bytes}
    (front : payload <+: node.data) (some' : payload ≠ []) (short : payload.length ≤ 16200) :
    ∃ response after,
      Performs start relay clock (request (.read file 0 (.ofNat payload.length) 0)) response after ∧
      response.data = .ok payload ∧ after.volume = relay.volume := by
  have asked : (UInt32.ofNat payload.length).toNat = payload.length :=
    UInt32.toNat_ofNat_of_lt' (by
      have word : UInt32.size = 4294967296 := rfl
      omega)
  let reading : Request := ⟨.v1, ⟨0⟩, .read file 0 (.ofNat payload.length) 0, []⟩
  have grants := Volume.grants_read (clock relay.session.broker.nextHint) (relay.received reading)
    rfl held front some' asked (by
      change 120 + _ ≤ 16320
      omega)
  have got := (Volume.readResponse_spec (relay.received reading) rfl (by
    change 120 + _ < 65536
    omega) (Nat.le_of_eq asked.symm)).1
  obtain ⟨after, performs, same⟩ := current.performs (request_eq_ok _ rfl) rfl grants
  exact ⟨_, after, performs, got, same⟩

/-- The size of an open file is reported in full. -/
theorem Current.queryInformation (current : Current start relay) {file : FileKey} {name : String}
    {node : FileNode} (held : relay.volume.node? file = .ok (name, node)) :
    ∃ response info after,
      Performs start relay clock (request (.queryInformation file)) response after ∧
      response.answer = .queryInformation info ∧ info.fileSize.toNat = node.data.length ∧
      after.volume = relay.volume := by
  obtain ⟨info, grants, size⟩ := Volume.grants_queryInformation _
    (relay.received ⟨.v1, ⟨0⟩, .queryInformation file, []⟩) current.lawful rfl held
  obtain ⟨after, performs, same⟩ := current.performs (request_eq_ok _ rfl) rfl grants
  exact ⟨_, info, after, performs, rfl, size, same⟩

/-- The bytes of a name are resolved to the name. -/
theorem resolveText_name {request : Request} {name : String}
    (short : name.toUTF8.toList.length ≤ 16240) (trailing : request.trailing = name.toUTF8.toList) :
    request.resolveText (wholeRegion name.toUTF8.toList) = .ok name := by
  have resolved : request.resolve (wholeRegion name.toUTF8.toList) = .ok name.toUTF8.toList := by
    unfold Request.resolve
    rw [trailing]
    exact resolve_wholeRegion short
  unfold Request.resolveText
  rw [resolved]
  dsimp only [bind, Except.bind]
  rw [Text.fromUTF8?_bytes]
  rfl

/-- The request that opens a file by its name. -/
theorem opening_eq_ok {name : String} (named : name.toUTF8.toList.length ≤ 16240) :
    let bytes := name.toUTF8.toList
    let opening : Request := ⟨.v1, ⟨0⟩, .create (openOptions (wholeRegion bytes)), bytes⟩
    requestWith bytes (fun region => .create (openOptions region)) = .ok opening ∧
      opening.WellFormed := by
  refine requestWith_eq_ok named _ fun region member => ?_
  change region ∈ [(default : Region), default, wholeRegion name.toUTF8.toList] at member
  simp only [List.mem_cons, List.not_mem_nil, or_false] at member
  rcases member with rfl | rfl | rfl
  · exact .inr rfl
  · exact .inr rfl
  · exact .inl rfl

/-- Opening gives a new handle to the file of the name, which holds what it held. -/
theorem Current.create (current : Current start relay) {name : String}
    (named : name.toUTF8.toList.length ≤ 16240) {length : Nat}
    (room : relay.volume.HasRoom name length) :
    ∃ response file granted info node after,
      Performs start relay clock (requestWith name.toUTF8.toList fun region =>
        .create (openOptions region)) response after ∧
      response.answer = .create file granted info ∧
      file.handle.toNat = relay.volume.lastHandle + 1 ∧
      after.volume.handles = relay.volume.handles ++ [(relay.volume.lastHandle + 1, name)] ∧
      after.volume.node? file = .ok (name, node) ∧
      after.volume.used + (length - node.size) ≤ after.volume.size := by
  obtain ⟨file, info, node, volume, grants, handle, handles, held, data, used, size⟩ :=
    Volume.grants_open _ (relay.received
      ⟨.v1, ⟨0⟩, .create (openOptions (wholeRegion name.toUTF8.toList)), name.toUTF8.toList⟩)
      current.lawful rfl (resolveText_name named rfl)
      (Volume.Disposition.ofOptions?_toOptions .openOrCreate) room.handles room.indices
  obtain ⟨after, performs, rfl⟩ := current.performs (opening_eq_ok named) rfl grants
  refine ⟨_, file, _, info, node, after, performs, rfl, handle, handles, held, ?_⟩
  have space := room.space
  rw [← data] at space
  rw [used, size]
  exact space

/-- Closing takes back the handle that was given last. -/
theorem Current.close (current : Current start relay) (file : FileKey) :
    ∃ response after,
      Performs start relay clock (request (.close file)) response after ∧
      after.volume = relay.volume.close file :=
  let ⟨after, performs, same⟩ := current.performs (request_eq_ok _ rfl) rfl
    (Volume.grants_close _ (relay.received ⟨.v1, ⟨0⟩, .close file, []⟩) relay.volume rfl)
  ⟨_, after, performs, same⟩

end Requests

/-! ### Rounds -/

/-- What is written to an open file is read back from it, and the file is long enough for it. -/
theorem run_readBack (current : Current start relay) (tally : Tally) (clock : Nat → UInt64)
    {file : FileKey} {name : String} {node : FileNode}
    (held : relay.volume.node? file = .ok (name, node))
    {payload : Bytes} (some' : payload ≠ []) (short : payload.length ≤ 16200)
    (space : relay.volume.used + (payload.length - node.size) ≤ relay.volume.size) :
    ∃ after,
      (readBack file payload).run ⟨relay, tally, clock⟩
        = (.ok true, ⟨after, { tally with operations := tally.operations + 3 }, clock⟩) ∧
      Current start after ∧ after.volume.handles = relay.volume.handles := by
  obtain ⟨_, changed, first, writes, held₁, front, handles⟩ :=
    current.write clock held (Nat.le_trans short (by decide)) space
  obtain ⟨_, second, reads, got, same₂⟩ := writes.current.read clock held₁ front some' short
  obtain ⟨queried, info, third, queries, answer, size, same₃⟩ :=
    reads.current.queryInformation clock (same₂ ▸ held₁)
  refine ⟨third, ?_, queries.current, by rw [same₃, same₂, handles]⟩
  unfold readBack
  refine (writes.run _ _).trans ?_
  refine (reads.run _ _).trans ?_
  rw [got]
  refine (run_bind_ok (run_formatted _)).trans ?_
  refine (queries.run _ _).trans ?_
  have enough : payload.length ≤ info.fileSize.toNat := size ▸ front.length_le
  rw [answer]
  simp [enough]
  rfl

/-- A round opens a handle, reads back what it wrote, and closes the handle again. -/
theorem run_cycle (current : Current start relay) (tally : Tally) (clock : Nat → UInt64)
    {name : String} (named : name.toUTF8.toList.length ≤ 16240) {payload : Bytes}
    (some' : payload ≠ [])
    (short : payload.length ≤ 16200) (room : relay.volume.HasRoom name payload.length) :
    ∃ after,
      (cycle name payload).run ⟨relay, tally, clock⟩
        = (.ok true, ⟨after, { tally with operations := tally.operations + 5 }, clock⟩) ∧
      Current start after ∧ after.volume.handles = relay.volume.handles := by
  obtain ⟨opened, file, granted, info, node, first, opens, answer, handle, handles, held, space⟩ :=
    current.create clock named room
  obtain ⟨second, exchanged, current₂, same₂⟩ := run_readBack opens.current
    { tally with operations := tally.operations + 1 } clock held some' short space
  obtain ⟨_, third, closes, same₃⟩ := current₂.close clock file
  refine ⟨third, ?_, closes.current, ?_⟩
  · unfold cycle
    refine (opens.run _ _).trans ?_
    rw [answer]
    dsimp only
    refine (run_bind_ok (run_lift exchanged)).trans ?_
    exact closes.run _ _
  · rw [same₃]
    change second.volume.handles.filter (fun entry => entry.1 != file.handle.toNat) = _
    rw [same₂, handles, handle]
    exact current.lawful.filter_handles name

/-- On a session of another revision the first request of a round is refused, and nothing comes of
the round. -/
theorem run_cycle_of_ne (rest : relay.AtRest) (other : relay.worker.revision ≠ .v1) {name : String}
    (named : name.toUTF8.toList.length ≤ 16240) (payload : Bytes) (tally : Tally)
    (clock : Nat → UInt64) :
    (cycle name payload).run ⟨relay, tally, clock⟩
      = (.error (Broker.foreign .v1 relay.worker.revision), ⟨relay, tally, clock⟩) := by
  obtain ⟨create, -⟩ := opening_eq_ok named
  have refused := rest.call_of_ne (clock relay.session.broker.nextHint) ⟨.v1, ⟨0⟩,
    .create (openOptions (wholeRegion name.toUTF8.toList)), name.toUTF8.toList⟩ other.symm
  unfold cycle
  rw [create]
  refine (run_bind_ok (run_formatted _)).trans ?_
  exact run_bind_error (run_call_error refused)

/-- A round succeeds on every session of the revision that its requests are built for, in either
mode of exchange, whatever the session and its volume were used for before: what was written is read
back, five operations are performed, and the open handles are the same as before. On a session of
the other revision the bound on the payload is that revision's, but the requests are not, and the
first of them is refused. -/
theorem cycle_by_revision {config : Broker.Config} (admits : 0 < config.capacity) {label : String}
    {opened : Instant} {volume : Volume} (lawful : volume.Lawful) {thread : String} {relay : Relay}
    (reached : Relay.Reached (.start (.start label config opened) volume thread) relay)
    (running : relay.ended = none) (tally : Tally) (clock : Nat → UInt64) {producer : Nat}
    (word : producer < Word.limit)
    {payload : Bytes} (some' : payload ≠ []) (wanted : Nat)
    (bounded : payload.length ≤ payloadLimit config.revision wanted)
    (room : relay.volume.HasRoom (fileName producer) payload.length) :
    (config.revision = .v1 → ∃ after,
      (cycle (fileName producer) payload).run ⟨relay, tally, clock⟩
        = (.ok true, ⟨after, { tally with operations := tally.operations + 5 }, clock⟩) ∧
      after.volume.handles = relay.volume.handles ∧ after.ended = none ∧
      Relay.Reached (.start (.start label config opened) volume thread) after) ∧
    (config.revision = .legacy →
      (cycle (fileName producer) payload).run ⟨relay, tally, clock⟩
        = (.error (.protocolViolation "request encoded for V1, session speaks Legacy"),
          ⟨relay, tally, clock⟩)) := by
  have named := size_fileName word
  obtain ⟨rest, lawful', revision⟩ := Relay.atRest_of_reached admits lawful reached running
  constructor
  · intro current
    have short : payload.length ≤ 16200 := by
      rw [payloadLimit, current] at bounded
      exact Nat.le_trans bounded (Nat.min_le_right _ _)
    obtain ⟨after, ran, current', handles⟩ :=
      run_cycle ⟨reached, rest, lawful', revision.trans current⟩ tally clock
        (Nat.le_trans named (by decide)) some' short room
    exact ⟨after, ran, handles, current'.rest.running, current'.reached⟩
  · intro legacy
    rw [legacy] at revision
    rw [run_cycle_of_ne rest (by rw [revision]; decide) (Nat.le_trans named (by decide)), revision]
    rfl

/-- A fresh relay of a revision, over a volume of a mebibyte. -/
def fresh (revision : Revision) (mode : ExchangeMode) : Relay :=
  .start (.start "w" { Broker.Config.standard with revision, mode } 0) (.new "w" 1048576 0) "worker"

theorem cycle_by_revision_fresh :
    (∃ after, (cycle (fileName 0) [1, 2, 3]).run ⟨fresh .v1 .single, .zero, .ofNat⟩
        = (.ok true, ⟨after, ⟨0, 5, 0, 0⟩, .ofNat⟩) ∧ after.volume.handles = []) ∧
      (cycle (fileName 0) [1, 2, 3]).run ⟨fresh .legacy .batched, .zero, .ofNat⟩
        = (.error (.protocolViolation "request encoded for V1, session speaks Legacy"),
          ⟨fresh .legacy .batched, .zero, .ofNat⟩) := by
  have lawful : (Volume.new "w" 1048576 0).Lawful := Volume.lawful_new "w" (by decide) 0
  have room : (Volume.new "w" 1048576 0).HasRoom (fileName 0) 3 :=
    ⟨by decide, by decide, by decide⟩
  have reached : ∀ revision mode, Relay.Reached
      (.start (.start "w" { Broker.Config.standard with revision, mode } 0) (.new "w" 1048576 0)
        "worker") (fresh revision mode) := fun _ _ => .start
  constructor
  · obtain ⟨after, ran, handles, -⟩ := (cycle_by_revision (by decide) lawful
      (reached .v1 .single) rfl .zero .ofNat (by decide) (List.cons_ne_nil 1 [2, 3]) 10 (by decide)
      room).1 rfl
    exact ⟨after, ran, handles⟩
  · exact (cycle_by_revision (by decide) lawful (reached .legacy .batched) rfl .zero .ofNat
      (by decide)
      (List.cons_ne_nil 1 [2, 3]) 10 (by decide) room).2 rfl

end Workload
end FileBroker
