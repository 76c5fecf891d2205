import FileBroker.Broker.Config
import FileBroker.Data.Schema
import FileBroker.Describe.Relay
import FileBroker.Worker.Config

/-! Records that pass between processes or are kept in files, each with its schema. -/
namespace FileBroker.Describe

open Data

/-! ### Names and numbers -/

def kinds : Schema Kind := .choice Kind.all Kind.name

def admissions : Schema Admission := .choice Admission.all Admission.name

def revisions : Schema Revision := .choice Revision.all Revision.keyword

def exchangeModes : Schema ExchangeMode := .choice ExchangeMode.all ExchangeMode.keyword

def stopModes : Schema StopMode := .choice StopMode.all StopMode.keyword

/-- Counts and sizes. -/
def size : Schema Nat := .natural (Word.limit)

/-! ### Records -/

def notifications : Schema Notification where
  write := notification
  read? value := do
    let fields ← Schema.allFields? ["filter", "action", "file_name"] value
    return ⟨← fields.get? "filter" .word32, ← fields.get? "action" .word32,
      ← fields.get? "file_name" .text⟩

def healths : Schema Health where
  write := channelHealth
  read? value := do
    let names := ["transacts", "requests_delivered", "responses_received", "last_error"]
    let fields ← Schema.allFields? names value
    return ⟨← fields.get? "transacts" size, ← fields.get? "requests_delivered" size,
      ← fields.get? "responses_received" size,
      ← fields.getOr? "last_error" (.optional .text) none⟩

/-- Settings that are missing keep their standard value. -/
def brokerConfigs : Schema Broker.Config where
  write config :=
    .table
      [("capacity", size.write config.capacity),
       ("operation_timeout", Schema.span.write config.operationTimeout),
       ("transact_timeout", Schema.span.write config.exchangeTimeout),
       ("retry_delay", Schema.span.write config.retryDelay),
       ("max_completion_retries", .ofNat config.maxRetries),
       ("stop_grace", Schema.span.write config.stopGrace),
       ("expiry_interval", Schema.span.write config.sweepInterval),
       ("expire_processing", .bool config.expiresInFlight),
       ("version", revisions.write config.revision),
       ("mode", exchangeModes.write config.mode)]
  read? value := do
    let names :=
      ["capacity", "operation_timeout", "transact_timeout", "retry_delay",
       "max_completion_retries", "stop_grace", "expiry_interval", "expire_processing", "version",
       "mode"]
    let fields ← Schema.fields? names value
    let standard := Broker.Config.standard
    return {
      capacity := ← fields.getOr? "capacity" size standard.capacity
      operationTimeout := ← fields.getOr? "operation_timeout" .span standard.operationTimeout
      exchangeTimeout := ← fields.getOr? "transact_timeout" .span standard.exchangeTimeout
      retryDelay := ← fields.getOr? "retry_delay" .span standard.retryDelay
      maxRetries :=
        ← fields.getOr? "max_completion_retries" (.natural (UInt32.size)) standard.maxRetries
      stopGrace := ← fields.getOr? "stop_grace" .span standard.stopGrace
      sweepInterval := ← fields.getOr? "expiry_interval" .span standard.sweepInterval
      expiresInFlight := ← fields.getOr? "expire_processing" .flag standard.expiresInFlight
      revision := ← fields.getOr? "version" revisions standard.revision
      mode := ← fields.getOr? "mode" exchangeModes standard.mode }

def workerConfigs : Schema Worker.Config where
  write config :=
    .table
      [("threads", size.write config.threads), ("thread_name", .text config.threadName)]
  read? value := do
    let fields ← Schema.fields? ["threads", "thread_name"] value
    let standard := Worker.Config.standard
    return ⟨← fields.getOr? "threads" size standard.threads,
      ← fields.getOr? "thread_name" .text standard.threadName⟩

/-! ### Counters -/

def names (entries : List (String × Nat)) : List String := entries.map Prod.fst

def queueCounters : Schema (List (String × Nat)) := .counters ["pending", "processing", "retried"]

def brokerCounters : Schema (List (String × Nat)) := .counters (names Broker.Counters.zero.toList)

def deskCounters : Schema (List (String × Nat)) := .counters (names (Desk.new ()).toList)

end FileBroker.Describe
