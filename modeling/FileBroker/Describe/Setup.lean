import FileBroker.Broker.Config
import FileBroker.Channel.Basic
import FileBroker.Data.Fields
import FileBroker.Status

/-!
What calls carry besides commands, from structured data: hints, statuses, revisions and spans of
time, and the settings of a broker, where whatever is missing is as usual.
-/
namespace FileBroker.Compose

open Data

def hint (value : Value) : Hint := ⟨value.u64 "hint"⟩

def hints (value : Value) : List Hint :=
  (value.items "hints").map fun item => ⟨UInt64.ofNat item.toNat⟩

def status (value : Value) : Status := ⟨value.u32 "status"⟩

def notification (value : Value) : Notification :=
  ⟨value.u32 "filter", value.u32 "action", value.string "file_name"⟩

/-! ### Choices -/

def revision (value : Value) (key : String) : Revision :=
  if value.string key == "legacy" then .legacy else .v1

def exchangeMode (value : Value) : ExchangeMode :=
  if value.string "mode" == "single" then .single else .batched

def stopMode (value : Value) : StopMode :=
  if value.string "mode" == "forced" then .forced else .graceful

def direction (value : Value) : Direction :=
  if value.string "direction" == "response" then .response else .request

/-! ### Time -/

/-- A number of milliseconds; any text is the longest span. -/
def span : Value → Span
  | .text _ => Span.longest
  | value => Span.milliseconds value.toNat

def spanOr (value : Value) (key : String) (default : Span) : Span :=
  if value.has key then span (value.entry key) else default

/-! ### Settings -/

def brokerConfig (value : Value) : Broker.Config :=
  let standard := Broker.Config.standard
  { capacity := value.natOr "capacity" standard.capacity
    operationTimeout := spanOr value "operation_timeout_ms" standard.operationTimeout
    exchangeTimeout := spanOr value "transact_timeout_ms" standard.exchangeTimeout
    retryDelay := spanOr value "retry_delay_ms" standard.retryDelay
    maxRetries := value.natOr "max_completion_retries" standard.maxRetries
    stopGrace := spanOr value "stop_grace_ms" standard.stopGrace
    sweepInterval := spanOr value "expiry_interval_ms" standard.sweepInterval
    expiresInFlight := value.flagOr "expire_processing" standard.expiresInFlight
    revision := revision value "version"
    mode := exchangeMode value }

end FileBroker.Compose
