import FileBroker.Channel.Playback
import Mathlib.Tactic.Common

/-!
A playback loses nothing. Whatever is called on it, in any order, every batch that was pushed is
either delivered or still to come, in the order of pushing, and every response batch is either taken
or still kept, in the order of sending. An exchange that fails takes its responses in all the same,
and leaves the script as it was.
-/
namespace FileBroker.Playback

/-! ### Calls -/

inductive Call where
  | push (batch : Bytes)
  | exchange (responses : Bytes) (buffer : Buffer)
  | takeCaptured
  | notify (notification : Notification)
  | stop (mode : StopMode)

namespace Call

/-- The batch that a call adds to the script. -/
def pushed : Call → List Bytes
  | .push batch => [batch]
  | _ => []

/-- The responses that a call sends, unless there are none. -/
def sent : Call → List Bytes
  | .exchange responses _ => if responses.isEmpty then [] else [responses]
  | _ => []

end Call

def perform (playback : Playback) : Call → Playback
  | .push batch => playback.push batch
  | .exchange responses buffer => (playback.exchange responses buffer).2
  | .takeCaptured => playback.takeCaptured.2
  | .notify notification => (playback.notify notification).2
  | .stop mode => playback.stop mode

def performAll (playback : Playback) (calls : List Call) : Playback := calls.foldl perform playback

/-- An exchange that takes a batch off the script delivers what then stands at the front of the
buffer. -/
def deliveredBy (before : Playback) :
    Except ChannelError (Nat × Buffer) × Playback → List Bytes
  | (.ok (count, filled), after) =>
    if after.script.length < before.script.length then [filled.front count] else []
  | (.error _, _) => []

def delivered (playback : Playback) : Call → List Bytes
  | .exchange responses buffer => playback.deliveredBy (playback.exchange responses buffer)
  | _ => []

/-- The response batches that a call returns. -/
def taken (playback : Playback) : Call → List Bytes
  | .takeCaptured => playback.takeCaptured.1
  | _ => []

/-- What the calls yield, one after the other. -/
def along (yield : Playback → Call → List Bytes) (playback : Playback) : List Call → List Bytes
  | [] => []
  | call :: rest => yield playback call ++ (playback.perform call).along yield rest

/-- How many messages these batches hold. -/
def messages (direction : Direction) (batches : List Bytes) : Nat :=
  total (batches.map fun batch => (Batch.frames direction batch).length)

@[simp] theorem messages_nil (direction : Direction) : messages direction [] = 0 := rfl

@[simp] theorem messages_append (direction : Direction) (left right : List Bytes) :
    messages direction (left ++ right) = messages direction left + messages direction right := by
  simp [messages]

/-! ### One exchange -/

section Exchange

variable (playback : Playback) (responses : Bytes) (buffer : Buffer)

@[simp] theorem script_capture : (playback.capture responses).script = playback.script := by
  unfold capture
  split <;> rfl

@[simp] theorem stopped_capture : (playback.capture responses).stopped = playback.stopped := by
  unfold capture
  split <;> rfl

@[simp] theorem requestsDelivered_capture :
    (playback.capture responses).health.requestsDelivered = playback.health.requestsDelivered := by
  unfold capture
  split <;> rfl

theorem captured_capture :
    (playback.capture responses).captured
      = playback.captured ++ (Call.exchange responses buffer).sent := by
  unfold capture Call.sent
  by_cases nothing : responses.isEmpty <;> simp [nothing]

theorem responsesReceived_capture :
    (playback.capture responses).health.responsesReceived
      = playback.health.responsesReceived
        + messages .response (Call.exchange responses buffer).sent := by
  unfold capture Call.sent messages
  by_cases nothing : responses.isEmpty <;> simp [nothing, Batch.length_frames]

/-- Everything that can come of an exchange. The responses are taken in first in any case. -/
inductive Outcome (playback : Playback) (responses : Bytes) (buffer : Buffer) :
    Except ChannelError (Nat × Buffer) × Playback → Prop where
  | stopped (halted : playback.stopped.isSome = true) :
      Outcome playback responses buffer (.error .stopped, playback.capture responses)
  | idle (running : playback.stopped = none)
      (nothing : buffer.isEmpty = true ∨ playback.script = []) :
      Outcome playback responses buffer (.ok (0, buffer), playback.capture responses)
  | cramped {batch : Bytes} {rest : List Bytes} {health : Health}
      (running : playback.stopped = none) (next : playback.script = batch :: rest)
      (long : buffer.size < batch.length)
      (same : health.responsesReceived = (playback.capture responses).health.responsesReceived ∧
        health.requestsDelivered = playback.health.requestsDelivered) :
      Outcome playback responses buffer
        (.error (.bufferTooSmall batch.length buffer.size),
          { playback.capture responses with health })
  | delivered {batch : Bytes} {rest : List Bytes} {health : Health} {filled : Buffer}
      (running : playback.stopped = none) (next : playback.script = batch :: rest)
      (whole : filled.bytes = batch ++ buffer.bytes.drop batch.length)
      (grown : health.responsesReceived = (playback.capture responses).health.responsesReceived ∧
        health.requestsDelivered
          = playback.health.requestsDelivered + Batch.count .request batch) :
      Outcome playback responses buffer
        (.ok (batch.length, filled), { playback.capture responses with script := rest, health })

theorem exchange_outcome :
    Outcome playback responses buffer (playback.exchange responses buffer) := by
  unfold exchange
  simp only [stopped_capture]
  by_cases halted : playback.stopped.isSome = true
  · rw [if_pos halted]
    exact .stopped halted
  · have running : playback.stopped = none := by simpa using halted
    rw [if_neg halted]
    by_cases unasked : buffer.isEmpty = true
    · rw [if_pos unasked]
      exact .idle running (.inl unasked)
    · rw [if_neg unasked]
      unfold deliver
      split
      · next none' =>
        rw [script_capture] at none'
        exact .idle running (.inr none')
      · next batch rest next =>
        rw [script_capture] at next
        split
        · apply Outcome.delivered running next
          · simp [Buffer.overwrite, Bytes.overwrite]
          · simp
        · next short =>
          apply Outcome.cramped running next (Nat.not_le.1 short)
          simp

variable {playback responses buffer}

theorem front_filled {batch : Bytes} {filled : Buffer}
    (whole : filled.bytes = batch ++ buffer.bytes.drop batch.length) :
    filled.front batch.length = batch := by
  rw [Buffer.front, whole, List.take_left]

/-- What is at the front of the buffer afterwards is what was at the front of the script before. -/
theorem script_exchange :
    playback.script = playback.delivered (.exchange responses buffer)
      ++ (playback.exchange responses buffer).2.script := by
  have outcome := exchange_outcome playback responses buffer
  simp only [Playback.delivered]
  generalize playback.exchange responses buffer = made at outcome ⊢
  cases outcome with
  | stopped halted => simp [deliveredBy]
  | idle running nothing => simp [deliveredBy]
  | cramped running next long same => simp [deliveredBy]
  | delivered running next whole grown => simp [deliveredBy, next, front_filled whole]

theorem captured_exchange :
    (playback.exchange responses buffer).2.captured
      = playback.captured ++ (Call.exchange responses buffer).sent := by
  have outcome := exchange_outcome playback responses buffer
  rw [← captured_capture]
  generalize playback.exchange responses buffer = made at outcome ⊢
  cases outcome <;> rfl

theorem responsesReceived_exchange :
    (playback.exchange responses buffer).2.health.responsesReceived
      = playback.health.responsesReceived
        + messages .response (Call.exchange responses buffer).sent := by
  have outcome := exchange_outcome playback responses buffer
  rw [← responsesReceived_capture]
  generalize playback.exchange responses buffer = made at outcome ⊢
  cases outcome with
  | stopped halted => rfl
  | idle running nothing => rfl
  | cramped running next long same => exact same.1
  | delivered running next whole grown => exact grown.1

theorem requestsDelivered_exchange :
    (playback.exchange responses buffer).2.health.requestsDelivered
      = playback.health.requestsDelivered
        + messages .request (playback.delivered (.exchange responses buffer)) := by
  have outcome := exchange_outcome playback responses buffer
  simp only [Playback.delivered]
  generalize playback.exchange responses buffer = made at outcome ⊢
  cases outcome with
  | stopped halted => simp [deliveredBy, messages]
  | idle running nothing => simp [deliveredBy, messages]
  | cramped running next long same => simpa [deliveredBy, messages] using same.2
  | delivered running next whole grown =>
    simp [deliveredBy, messages, next, front_filled whole, grown.2, Batch.length_frames]

/-- The first batch of the script is delivered to the first buffer that can hold it. -/
theorem delivered_of_next {batch : Bytes} {rest : List Bytes} (running : playback.stopped = none)
    (next : playback.script = batch :: rest) (asked : buffer.isEmpty = false)
    (fits : batch.length ≤ buffer.size) :
    playback.delivered (.exchange responses buffer) = [batch] := by
  have outcome := exchange_outcome playback responses buffer
  simp only [Playback.delivered]
  generalize playback.exchange responses buffer = made at outcome ⊢
  cases outcome with
  | stopped halted => simp [running] at halted
  | idle _ nothing => simp [asked, next] at nothing
  | cramped _ next' long =>
    rw [next] at next'
    cases next'
    omega
  | delivered _ next' whole _ =>
    rw [next] at next'
    cases next'
    simp [deliveredBy, next, front_filled whole]

end Exchange

/-! ### Any number of calls -/

/-- What went in is what came out and what is still there, and the counters say how much it was. -/
structure Conserves (before : Playback) (pushed sent delivered taken : List Bytes)
    (after : Playback) : Prop where
  script : before.script ++ pushed = delivered ++ after.script
  captured : before.captured ++ sent = taken ++ after.captured
  received : after.health.responsesReceived
    = before.health.responsesReceived + messages .response sent
  handed : after.health.requestsDelivered
    = before.health.requestsDelivered + messages .request delivered

namespace Conserves

theorem refl (playback : Playback) : Conserves playback [] [] [] [] playback := by
  constructor <;> simp

theorem trans {first second third : Playback}
    {pushed sent delivered taken pushed' sent' delivered' taken' : List Bytes}
    (left : Conserves first pushed sent delivered taken second)
    (right : Conserves second pushed' sent' delivered' taken' third) :
    Conserves first (pushed ++ pushed') (sent ++ sent') (delivered ++ delivered')
      (taken ++ taken') third := by
  constructor
  · rw [← List.append_assoc, left.script, List.append_assoc, right.script, List.append_assoc]
  · rw [← List.append_assoc, left.captured, List.append_assoc, right.captured, List.append_assoc]
  · rw [right.received, left.received, messages_append, Nat.add_assoc]
  · rw [right.handed, left.handed, messages_append, Nat.add_assoc]

end Conserves

theorem conserves_perform (playback : Playback) (call : Call) :
    Conserves playback call.pushed call.sent (playback.delivered call) (playback.taken call)
      (playback.perform call) := by
  cases call with
  | push batch =>
    refine { Conserves.refl playback with script := ?_ }
    rfl
  | exchange responses buffer =>
    constructor
    · exact (List.append_nil _).trans script_exchange
    · exact captured_exchange.symm
    · exact responsesReceived_exchange
    · exact requestsDelivered_exchange
  | takeCaptured =>
    exact { Conserves.refl playback with captured := rfl }
  | notify notification =>
    simp only [perform, notify]
    split
    · exact .refl playback
    · exact { Conserves.refl playback with }
  | stop mode => exact { Conserves.refl playback with }

theorem conserves_performAll (playback : Playback) (calls : List Call) :
    Conserves playback (calls.flatMap Call.pushed) (calls.flatMap Call.sent)
      (playback.along delivered calls) (playback.along taken calls)
      (playback.performAll calls) := by
  induction calls generalizing playback with
  | nil => exact .refl playback
  | cons call rest ih => exact (conserves_perform playback call).trans (ih _)

/-- As long as nothing is delivered, the first batch of the script stays the first. -/
theorem next_of_undelivered {playback : Playback} {batch : Bytes} {rest : List Bytes}
    (next : playback.script = batch :: rest) {calls : List Call}
    (undelivered : playback.along delivered calls = []) :
    ∃ more, (playback.performAll calls).script = batch :: more := by
  have kept := (conserves_performAll playback calls).script
  rw [undelivered, next, List.nil_append] at kept
  exact ⟨_, kept.symm⟩

/-- Whatever is called on a new playback: the deliveries are the first of the batches that were
pushed, and those after them are still to come; the batches of responses that were sent have all
been taken or can be taken now; and both are counted. An exchange that fails takes nothing off the
script, and one that succeeds takes its first batch at most and copies it to the front of the
buffer. So a batch that did not fit is the next one to be delivered. -/
theorem loses_nothing (calls : List Call) :
    let playback := new.performAll calls
    let deliveries := new.along delivered calls
    calls.flatMap Call.pushed = deliveries ++ playback.script ∧
    calls.flatMap Call.sent = new.along taken calls ++ playback.takeCaptured.1 ∧
    playback.health.requestsDelivered = messages .request deliveries ∧
    playback.health.responsesReceived = messages .response (calls.flatMap Call.sent) ∧
    (∀ responses buffer, let (result, after) := playback.exchange responses buffer
      (∀ fault, result = .error fault →
        after.script = playback.script ∧
        (fault = .stopped ∨ ∃ batch ∈ playback.script.head?,
          fault = .bufferTooSmall batch.length buffer.size ∧ buffer.size < batch.length)) ∧
      ∀ count filled, result = .ok (count, filled) →
        after.script = playback.script ∧ count = 0 ∧ filled = buffer ∨
        ∃ batch, playback.script = batch :: after.script ∧ count = batch.length ∧
          filled.bytes = batch ++ buffer.bytes.drop count) ∧
    ∀ batch rest later, playback.script = batch :: rest → playback.along delivered later = [] →
      (playback.performAll later).stopped = none →
      ∀ responses buffer, buffer.isEmpty = false → batch.length ≤ buffer.size →
        (playback.performAll later).delivered (.exchange responses buffer) = [batch] := by
  intro playback deliveries
  have conserves := conserves_performAll new calls
  refine ⟨conserves.script, conserves.captured, ?_, ?_, ?_, ?_⟩
  · exact conserves.handed.trans (Nat.zero_add _)
  · exact conserves.received.trans (Nat.zero_add _)
  · intro responses buffer
    have outcome := exchange_outcome playback responses buffer
    generalize playback.exchange responses buffer = made at outcome ⊢
    cases outcome with
    | stopped halted => simp
    | idle running nothing => simp
    | cramped running next long same => simp [next, long]
    | delivered running next whole grown => simp [next, whole]
  · intro batch rest later next undelivered running responses buffer asked fits
    obtain ⟨more, first⟩ := next_of_undelivered next undelivered
    exact delivered_of_next running first asked fits

/-- The first batch does not fit the first buffer. -/
theorem loses_nothing_cramped :
    let playback := new.performAll [.push [1, 2, 3], .push [4]]
    let small := Buffer.filled 2 0
    let large := Buffer.filled 5 9
    (playback.exchange [7] small).1 = .error (.bufferTooSmall 3 2) ∧
    (playback.exchange [7] small).2.script = [[1, 2, 3], [4]] ∧
    (∃ filled, (playback.exchange [7] large).1 = .ok (3, filled) ∧
      filled.bytes = [1, 2, 3, 9, 9]) ∧
    (playback.performAll [.exchange [7] small]).delivered (.exchange [] large) = [[1, 2, 3]] := by
  intro playback small large
  have fails : (playback.exchange [7] small).1 = .error (.bufferTooSmall 3 2) := rfl
  have works : (playback.exchange [7] large).1 = .ok (3, ⟨[1, 2, 3, 9, 9], 5, rfl⟩) := rfl
  obtain ⟨-, -, -, -, outcome, next⟩ := loses_nothing [.push [1, 2, 3], .push [4]]
  obtain ⟨-, count, -⟩ | ⟨batch, first, -, whole⟩ := (outcome [7] large).2 _ _ works
  · exact absurd count (by decide)
  · cases first
    refine ⟨fails, ((outcome [7] small).1 _ fails).1, ⟨_, works, whole⟩, ?_⟩
    exact next _ _ [.exchange [7] small] rfl rfl rfl [] large rfl (by decide)

end FileBroker.Playback
