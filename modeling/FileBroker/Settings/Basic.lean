import FileBroker.Broker.Config
import FileBroker.Describe.Record
import FileBroker.Worker.Config

/-!
What the program is set up with: a session, its workers and volume, and the workload for them.
-/
namespace FileBroker

structure Settings where
  /-- Names the session and the volume. -/
  volume : String
  capacity : Nat
  operationTimeout : Span
  exchangeTimeout : Span
  retryDelay : Span
  stopGrace : Span
  revision : Revision
  mode : ExchangeMode
  /-- Worker threads; 0 leaves their number to the machine. -/
  threads : Nat
  producers : Nat
  /-- Rounds of each producer. -/
  cycles : Nat
  /-- Longest payload of a write. -/
  maxWrite : Nat
  volumeSize : Nat
  logFilter : String
  /-- Where the report is saved; it is printed if there is no such place. -/
  reportPath : Option String
  deriving DecidableEq, Repr

namespace Settings

def standard : Settings where
  volume := "loopback"
  capacity := 1000
  operationTimeout := Span.seconds 300
  exchangeTimeout := Span.seconds 1
  retryDelay := Span.milliseconds 300
  stopGrace := Span.seconds 1
  revision := .v1
  mode := .batched
  threads := 0
  producers := 8
  cycles := 1000
  maxWrite := 4096
  volumeSize := 64 * 1024 * 1024
  logFilter := "info"
  reportPath := none

/-- Settings of the session, each in its supported range. -/
def brokerConfig (settings : Settings) : Broker.Config :=
  Broker.Config.normalized
    { Broker.Config.standard with
      capacity := settings.capacity
      operationTimeout := settings.operationTimeout
      exchangeTimeout := settings.exchangeTimeout
      retryDelay := settings.retryDelay
      stopGrace := settings.stopGrace
      revision := settings.revision
      mode := settings.mode }

def workerConfig (settings : Settings) : Worker.Config :=
  ⟨settings.threads, settings.volume ++ "-dispatch"⟩

open Data in
def toValue (settings : Settings) : Value :=
  let size := Value.ofNat
  let span := Schema.span.write
  .table
    [("volume", .text settings.volume), ("capacity", size settings.capacity),
     ("operation_timeout", span settings.operationTimeout),
     ("transact_timeout", span settings.exchangeTimeout),
     ("retry_delay", span settings.retryDelay), ("stop_grace", span settings.stopGrace),
     ("wire_version", .text settings.revision.keyword),
     ("transact_mode", .text settings.mode.keyword),
     ("dispatcher_threads", size settings.threads), ("producers", size settings.producers),
     ("operations", size settings.cycles), ("max_write", size settings.maxWrite),
     ("volume_size", size settings.volumeSize), ("log_filter", .text settings.logFilter),
     ("report_path", .ofOption .text settings.reportPath)]

theorem brokerConfig_standard : standard.brokerConfig = Broker.Config.standard := by decide

end Settings
end FileBroker
