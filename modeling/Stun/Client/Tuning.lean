/-
Stun/Client/Tuning.lean

The numbers that decide how a client waits and repeats: the retransmission
timeout, the resolution with which deadlines are checked, the count of
retransmissions and a hint for the size of its queues.

A tuning holds what was asked for.  What takes effect is bounded
(`effectiveTimeout`, `effectiveRate`): no span counts beyond a minute, and a
client that never repeats waits for as long as the default number of
retransmissions would take.
-/
import Stun.Time

namespace Stun

/-- How a client waits and repeats. -/
structure Tuning where
  bufferSize : Nat := 8
  timeout : Duration := .ofMillis 300
  rate : Duration := .ofMillis 5
  maxAttempts : UInt32 := 7
deriving DecidableEq, Repr

namespace Tuning

/-! ### Bounds -/

/-- The longest timeout and the coarsest resolution that take effect. -/
def longestTimeout : Duration := .ofMillis 60000

/-- The largest hint for the size of the queues. -/
def bufferLimit : Nat := 1024

/-- How many timeouts a client waits that never repeats. -/
def defaultAttempts : Nat := 7

/-- The timeout of the first attempt. -/
def effectiveTimeout (t : Tuning) : Duration :=
  let base := min t.timeout longestTimeout
  if t.maxAttempts = 0 then Duration.times base defaultAttempts else base

/-- The resolution of deadline checks. -/
def effectiveRate (t : Tuning) : Duration := min t.rate longestTimeout

/-! ### Choosing -/

/-- Asks for a hint. -/
def withBufferSize (t : Tuning) (n : Nat) : Tuning := { t with bufferSize := n }

/-- Asks for a timeout. -/
def withTimeout (t : Tuning) (d : Duration) : Tuning := { t with timeout := d }

/-- Asks for a resolution. -/
def withRate (t : Tuning) (d : Duration) : Tuning := { t with rate := d }

/-- Asks for a number of retransmissions. -/
def withMaxAttempts (t : Tuning) (n : UInt32) : Tuning := { t with maxAttempts := n }

/-- Asks for no retransmission. -/
def withoutRetransmission (t : Tuning) : Tuning := t.withMaxAttempts 0

/-- The tuning with the names of its fields. -/
def text (t : Tuning) : String :=
  s!"ClientBuilder \x7b buffer_size: {t.bufferSize}, rto: {Duration.text t.timeout}, " ++
    s!"rto_rate: {Duration.text t.rate}, max_attempts: {t.maxAttempts.toNat}, logger: None \x7d"

end Tuning

end Stun
