import FileBroker.Channel.Basic
import FileBroker.Clock

/-! What a broker is set up with, and the ranges its settings are kept in. -/
namespace FileBroker.Broker

structure Config where
  /-- Pending operations admitted before further capacity-limited ones are refused. -/
  capacity : Nat
  /-- Time an operation may stay queued or in flight before it expires. -/
  operationTimeout : Span
  /-- Longest an exchange waits for a request to arrive. -/
  exchangeTimeout : Span
  /-- Time between two attempts at a completion. -/
  retryDelay : Span
  /-- Further attempts at a completion before the operation expires. -/
  maxRetries : Nat
  /-- Time a graceful stop leaves to the operations in flight. -/
  stopGrace : Span
  /-- Period of the sweep for expired operations and due retries. -/
  sweepInterval : Span
  /-- Whether a sweep may expire operations in flight. -/
  expiresInFlight : Bool
  revision : Revision
  mode : ExchangeMode
  deriving DecidableEq, Repr

namespace Config

def standard : Config where
  capacity := 1000
  operationTimeout := Span.seconds 300
  exchangeTimeout := Span.seconds 1
  retryDelay := Span.milliseconds 300
  maxRetries := 8
  stopGrace := Span.seconds 1
  sweepInterval := Span.seconds 1
  expiresInFlight := true
  revision := .current
  mode := .batched

def clamp (low high n : Nat) : Nat := min high (max low n)

/-- Brings every setting into its supported range. -/
def normalized (config : Config) : Config :=
  { config with
    capacity := clamp 100 1000 config.capacity
    operationTimeout := clamp (Span.seconds 60) (Span.seconds 600) config.operationTimeout
    exchangeTimeout := clamp (Span.seconds 1) (Span.seconds 10) config.exchangeTimeout
    retryDelay := min config.retryDelay (Span.seconds 60)
    sweepInterval := if config.sweepInterval = 0 then Span.seconds 1 else config.sweepInterval }

theorem clamp_of_mem {low high n : Nat} (atLeast : low ≤ n) (atMost : n ≤ high) :
    clamp low high n = n := by
  unfold clamp; omega

theorem clamp_mem {low high : Nat} (n : Nat) (ordered : low ≤ high) :
    low ≤ clamp low high n ∧ clamp low high n ≤ high := by
  unfold clamp; omega

theorem normalized_normalized (config : Config) :
    config.normalized.normalized = config.normalized := by
  simp only [normalized, Config.mk.injEq, true_and, and_true]
  refine ⟨?_, ?_, ?_, ?_, ?_⟩
  · exact clamp_of_mem (clamp_mem _ (by decide)).1 (clamp_mem _ (by decide)).2
  · exact clamp_of_mem (clamp_mem _ (by decide)).1 (clamp_mem _ (by decide)).2
  · exact clamp_of_mem (clamp_mem _ (by decide)).1 (clamp_mem _ (by decide)).2
  · exact Nat.min_eq_left (Nat.min_le_right _ _)
  · simp only [Span.seconds]
    split <;> simp_all

end Config
end FileBroker.Broker
