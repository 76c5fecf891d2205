import FileBroker.Broker.Counters
import FileBroker.Describe.Message

/-! What brokers and channels report about themselves, as structured data. -/
namespace FileBroker.Describe

open Data

def counts (counts : Queue.Counts) : Value :=
  .list [.ofNat counts.pending, .ofNat counts.inFlight, .ofNat counts.parked]

/-- Only what has been counted at all. -/
def tally (entries : List (String × Nat)) : Value :=
  .table ((entries.filter fun entry => entry.2 != 0).map fun entry => (entry.1, .ofNat entry.2))

def operation (op : Operation) : Value :=
  .table
    [("hint", long op.hint.value), ("kind", .text op.kind.name), ("seq", .ofNat op.seq),
     ("retries", .ofNat op.retries), ("encoded_len", .ofNat op.size),
     ("request_hint", long op.request.hint.value),
     ("timeout_ms",
       .ofOption (fun deadline => .ofNat ((deadline - op.enqueuedAt) / 1000000)) op.deadline)]

def fetched (op : Operation) : Value :=
  .table
    [("hint", long op.hint.value), ("kind", .text op.kind.name), ("seq", .ofNat op.seq),
     ("len", .ofNat op.size)]

/-- What an exchange gave: the requests in the filled part of the buffer. -/
def exchanged : Except ChannelError (Nat × Buffer) → Value :=
  result channelError fun (filled, buffer) =>
    let written := buffer.front filled
    .table
      [("n", .ofNat filled),
       ("requests", .list ((Batch.frames .request written).map fun frame =>
         .list [long frame.hint.value, decoded (fun kind => .text kind.name) frame.header.kind?,
           .ofNat frame.size])),
       ("filled", bytes written)]

def health (health : Health) : Value :=
  .list
    [.ofNat health.exchanges, .ofNat health.requestsDelivered, .ofNat health.responsesReceived,
     .ofOption .text health.lastError]

def notification (notification : Notification) : Value :=
  .table
    [("filter", word notification.filter), ("action", word notification.action),
     ("file_name", .text notification.fileName)]

end FileBroker.Describe
