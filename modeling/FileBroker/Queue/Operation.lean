import FileBroker.Clock
import FileBroker.Failure
import FileBroker.Response.Basic

/-! One posted operation, from its admission to the one outcome its caller gets. -/
namespace FileBroker

/-- What a caller gets in the end. -/
abbrev Outcome := Except Failure Response

instance : DecidableEq Outcome := fun a b =>
  match a, b with
  | .ok x, .ok y => if h : x = y then .isTrue (h ▸ rfl) else .isFalse fun e => h (Except.ok.inj e)
  | .error x, .error y =>
    if h : x = y then .isTrue (h ▸ rfl) else .isFalse fun e => h (Except.error.inj e)
  | .ok _, .error _ => .isFalse nofun
  | .error _, .ok _ => .isFalse nofun

structure Operation where
  /-- Names the caller that waits for the outcome. -/
  ticket : Nat
  /-- Carries the hint that the worker will answer under. -/
  request : Request
  /-- Position in the order of arrival; zero until the operation is admitted. -/
  seq : Nat
  enqueuedAt : Instant
  deadline : Option Instant
  /-- How often its completion was put off. -/
  retries : Nat
  notBefore : Option Instant
  /-- The response that waits to be applied. -/
  response : Option Response
  deriving DecidableEq, Repr

namespace Operation

/-- An operation without a timeout, or with a deadline beyond the horizon, never expires. -/
def new (ticket : Nat) (request : Request) (timeout : Option Span) (now : Instant) : Operation where
  ticket
  request
  seq := 0
  enqueuedAt := now
  deadline := timeout.bind fun span => now.after? span
  retries := 0
  notBefore := none
  response := none

def hint (op : Operation) : Hint := op.request.hint

def kind (op : Operation) : Kind := op.request.kind

/-- The aligned wire form. -/
def encoded (op : Operation) : Bytes := op.request.encode

/-- Bytes the operation takes in a batch. -/
def size (op : Operation) : Nat := Layout.alignUp op.request.encodedSize

def isExpired (op : Operation) (now : Instant) : Bool :=
  match op.deadline with
  | some deadline => deadline ≤ now
  | none => false

/-- Whether a parked operation may be tried again. -/
def isDue (op : Operation) (now : Instant) : Bool :=
  match op.notBefore with
  | some instant => instant ≤ now
  | none => true

def park (op : Operation) (response : Response) (notBefore : Instant) : Operation :=
  { op with response := some response, notBefore := some notBefore, retries := op.retries + 1 }

/-- Takes out the response it was parked with. -/
def takeResponse (op : Operation) : Option Response × Operation :=
  (op.response, { op with response := none, notBefore := none })

end Operation

/-- An outcome handed to the caller that holds the ticket. -/
structure Delivery where
  ticket : Nat
  outcome : Outcome
  deriving DecidableEq

end FileBroker
