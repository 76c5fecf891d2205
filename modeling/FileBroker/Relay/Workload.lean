import FileBroker.Relay.Basic

/-!
A workload for a relay: producers that open, write, read back, query and close a file of their
own, round after round.
-/
namespace FileBroker

namespace Workload

/-- What the producers have seen so far. -/
structure Tally where
  cycles : Nat
  operations : Nat
  /-- Rounds in which some operation failed. -/
  failures : Nat
  /-- Rounds that read back something else than they wrote. -/
  mismatches : Nat
  deriving DecidableEq, Repr

def Tally.zero : Tally := ⟨0, 0, 0, 0⟩

structure State where
  relay : Relay
  tally : Tally
  /-- What the clock of the volume shows when the request of a ticket is handled, in ticks. -/
  clock : Nat → UInt64

/-- What the clock of the volume will show for the next request. -/
def State.ticks (state : State) : UInt64 := state.clock state.relay.session.broker.nextHint

/-- Steps of a producer; the state outlives a failure. -/
abbrev Run := ExceptT Failure (StateM State)

def formatted {α : Type} : Except FormatError α → Run α
  | .ok a => return a
  | .error error => throw (.protocolViolation error.message)

/-- Posts a request and waits for its response.

Callers take turns: whenever one of them posts, nobody waits for the outcome of an earlier request,
and nothing is pending. So a queue that admits anything at all never refuses a request for want of
capacity, and there is neither a post to be made once more nor a refusal to be counted. What else
could be counted, how long a call takes, is up to the machine that it runs on. -/
def call (request : Request) : Run Response := do
  let state ← get
  match state.relay.call state.ticks request with
  | (.error failure, relay) =>
    set { state with relay }
    throw failure
  | (.ok (_, outcome), relay) =>
    let tally := { state.tally with operations := state.tally.operations + 1 }
    set { state with relay, tally }
    match outcome with
    | .ok response => return response
    | .error failure => throw failure

def request (command : Command) : Except FormatError Request :=
  (Request.Draft.new .current).build command

/-- Builds a request around the bytes that its command names. -/
def requestWith (bytes : Bytes) (command : Region → Command) : Except FormatError Request := do
  let (region, draft) ← (Request.Draft.new .current).append bytes
  draft.build (command region)

/-- Reading, writing and what else a file is opened for. -/
def access : UInt32 := 0x0012019F

def openOptions (name : Region) : OpenOptions :=
  { (default : OpenOptions) with
    options := Volume.Disposition.openOrCreate.toOptions
    desiredAccess := access
    fileName := name }

/-- Writes a payload, and tells whether it is read back and the file is long enough for it. -/
def readBack (file : FileKey) (payload : Bytes) : Run Bool := do
  let _ ← call (← formatted (requestWith payload fun data => .write file 0 data 0 false))
  let response ← call (← formatted (request (.read file 0 (UInt32.ofNat payload.length) 0)))
  let same := (← formatted response.data) == payload
  let queried ← call (← formatted (request (.queryInformation file)))
  match queried.answer with
  | .queryInformation info => return same && payload.length ≤ info.fileSize.toNat
  | _ => return false

/-- One round: the file is closed whatever happened while it was open. -/
def cycle (name : String) (payload : Bytes) : Run Bool := do
  let opened ← call (← formatted (requestWith name.toUTF8.toList fun region =>
    .create (openOptions region)))
  match opened.answer with
  | .create file _ _ =>
    let result ← ExceptT.lift (readBack file payload).run
    let _ ← call (← formatted (request (.close file)))
    liftExcept result
  | _ => throw (.protocolViolation "create answered without a file")
where
  liftExcept : Except Failure Bool → Run Bool
    | .ok same => return same
    | .error failure => throw failure

def fileName (producer : Nat) : String := s!"\\producer-{producer}.bin"

/-- Runs one round and counts how it went. -/
def countedCycle (name : String) (payload : Bytes) (state : State) : State :=
  let (result, state) := ((cycle name payload).run state : Except Failure Bool × State)
  let tally := state.tally
  let tally := match result with
    | .ok true => tally
    | .ok false => { tally with mismatches := tally.mismatches + 1 }
    | .error _ => { tally with failures := tally.failures + 1 }
  { state with tally := { tally with cycles := tally.cycles + 1 } }

/-- A producer's rounds; it stops early when the session has stopped. -/
def producer (id : Nat) (payload : Nat → Bytes) (cycles : Nat) (state : State) : State :=
  (List.range cycles).foldl (fun state round =>
    if state.relay.session.isStopped then state
    else countedCycle (fileName id) (payload round) state) state

/-- All producers, one after the other; `payload` gives what each writes in each round. -/
def run (relay : Relay) (clock : Nat → UInt64) (producers cycles : Nat)
    (payload : Nat → Nat → Bytes) : State :=
  (List.range producers).foldl (fun state id => producer id (payload id) cycles state)
    ⟨relay, .zero, clock⟩

/-- Spreads numbers that lie close together over the whole range of a word. -/
def scatter (n : UInt64) : UInt64 := n * 6364136223846793005 + 1442695040888963407

/-- A payload of scattered length, at least one byte and at most `limit` bytes. -/
def payload (seed : UInt64) (limit producer round : Nat) : Bytes :=
  let start := scatter (scatter (scatter seed + UInt64.ofNat producer) + UInt64.ofNat round) >>> 24
  (List.range (1 + start.toNat % limit)).map fun i => (start + UInt64.ofNat i).toUInt8

/-- Longest payload whose read still fits one response. -/
def payloadLimit (revision : Revision) (wanted : Nat) : Nat :=
  min wanted (revision.messageLimit - Response.fixedSize)

end Workload
end FileBroker
