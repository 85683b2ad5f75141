/-
Stun/Client/Settings.lean

Settings of a client: each may be given or not, and what is given must be
sensible.

They are read from the table `stun` of a TOML document, whose other tables do
not matter.  A key that is no setting is refused.  An array in place of the
table gives the settings in their order; a shorter one leaves the last ones
out, and what a longer one has beyond them does not count.
-/
import Stun.Client.Tuning
import Stun.Error
import Stun.Toml.Document

namespace Stun

/-- The settings that were given. -/
structure Settings where
  timeoutMillis? : Option UInt64 := none
  rateMillis? : Option UInt64 := none
  maxAttempts? : Option UInt32 := none
  bufferSize? : Option UInt64 := none
  withoutRetransmission : Bool := false
deriving DecidableEq, Repr

namespace Settings

/-! ### Reading settings -/

/-- A number of a setting, up to a bound. -/
def number? (bound : Nat) : Toml.Node → Option Nat
  | .integer n => if 0 ≤ n ∧ n.toNat ≤ bound then some n.toNat else none
  | _ => none

/-- The settings with one more, by its key. -/
def withEntry (s : Settings) (key : String) (n : Toml.Node) : Option Settings :=
  match key with
  | "rto_ms" => do
    let v ← number? 18446744073709551615 n
    pure { s with timeoutMillis? := some (UInt64.ofNat v) }
  | "rto_rate_ms" => do
    let v ← number? 18446744073709551615 n
    pure { s with rateMillis? := some (UInt64.ofNat v) }
  | "max_attempts" => do
    let v ← number? 4294967295 n
    pure { s with maxAttempts? := some (UInt32.ofNat v) }
  | "buffer_size" => do
    let v ← number? 18446744073709551615 n
    pure { s with bufferSize? := some (UInt64.ofNat v) }
  | "no_retransmit" =>
    match n with
    | .boolean b => some { s with withoutRetransmission := b }
    | _ => none
  | _ => none

/-- The keys of the settings, in their order. -/
def keys : List String := ["rto_ms", "rto_rate_ms", "max_attempts", "buffer_size", "no_retransmit"]

/-- The settings of named values. -/
def ofEntries (entries : List (String × Toml.Node)) : Option Settings :=
  entries.foldlM (fun s (key, n) => s.withEntry key n) {}

/-- The settings of a value in place of their table. -/
def ofNode : Toml.Node → Option Settings
  | .table _ entries => ofEntries entries
  | .braces entries => ofEntries entries
  | .array items => ofEntries (keys.zip items)
  | .tables last before =>
    ofEntries (keys.zip (((last.2 :: before).reverse).map (Toml.Node.table .explicit)))
  | _ => none

/-- What an unreadable document is reported with. -/
def unreadable : String := "Invalid STUN settings"

/-- The settings of a document. -/
def ofToml (document : String) : Except Error Settings :=
  match Toml.parse? document with
  | none => .error (.configuration (unreadable ++ ": not a TOML document"))
  | some root =>
    match root.find? "stun" with
    | none => .ok {}
    | some n =>
      match ofNode n with
      | some s => .ok s
      | none => .error (.configuration (unreadable ++ ": not a table of settings"))

/-! ### Applying settings -/

/-- A span of milliseconds between a bound and a minute. -/
def millis (key : String) (ms least : Nat) : Except Error Duration :=
  if ms < least ∨ Tuning.longestTimeout < Duration.ofMillis ms then
    .error (.configuration
      s!"{key} out of range: {ms} (expected {least}..={Tuning.longestTimeout / 1000000})")
  else
    .ok (.ofMillis ms)

/-- The tuning that the settings ask for.  Of several that make no sense the
first in their order is reported. -/
def tuning (s : Settings) : Except Error Tuning := do
  let t : Tuning := {}
  let t ← match s.timeoutMillis? with
    | some ms => (millis "stun.rto_ms" ms.toNat 1).map t.withTimeout
    | none => .ok t
  let t ← match s.rateMillis? with
    | some ms => (millis "stun.rto_rate_ms" ms.toNat 0).map t.withRate
    | none => .ok t
  let t := match s.maxAttempts? with
    | some n => t.withMaxAttempts n
    | none => t
  let t ← match s.bufferSize? with
    | some n =>
      if Tuning.bufferLimit < n.toNat then
        .error (.configuration
          s!"stun.buffer_size out of range: {n.toNat} > {Tuning.bufferLimit}")
      else
        .ok (t.withBufferSize n.toNat)
    | none => .ok t
  .ok (if s.withoutRetransmission then t.withoutRetransmission else t)

end Settings

end Stun
