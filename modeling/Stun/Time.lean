/-
Stun/Time.lean

Instants and durations, in whole nanoseconds.

A clock has an end: an instant past `Instant.latest` cannot be told, and
`Instant.after?` answers `none` rather than another instant.  Durations have a
greatest value too, at which multiplication stops.
-/

namespace Stun

/-! ### Durations -/

/-- A span of time in nanoseconds. -/
abbrev Duration := Nat

namespace Duration

/-- A span of milliseconds. -/
def ofMillis (n : Nat) : Duration := n * 1000000

/-- The longest span that can be told: seconds on 64 bits and their fraction. -/
def longest : Duration := 18446744073709551615 * 1000000000 + 999999999

/-- The span `k` times over, or the longest one. -/
def times (d : Duration) (k : Nat) : Duration := min (d * k) longest

/-- The digits of a fraction of `width` places, without zeros at the end. -/
def fraction (width n : Nat) : String :=
  let digits := Nat.toDigits 10 n
  let places := List.replicate (width - digits.length) '0' ++ digits
  match (places.reverse.dropWhile (· = '0')).reverse with
  | [] => ""
  | kept => "." ++ String.ofList kept

/-- A span in the greatest unit that it fills, with its exact fraction. -/
def text (d : Duration) : String :=
  if 1000000000 ≤ d then
    toString (d / 1000000000) ++ fraction 9 (d % 1000000000) ++ "s"
  else if 1000000 ≤ d then
    toString (d / 1000000) ++ fraction 6 (d % 1000000) ++ "ms"
  else if 1000 ≤ d then
    toString (d / 1000) ++ fraction 3 (d % 1000) ++ "µs"
  else
    toString d ++ "ns"

end Duration

/-! ### Instants -/

/-- A point in time, in nanoseconds from an arbitrary origin. -/
abbrev Instant := Int

namespace Instant

/-- The end of the clock: seconds on 63 bits and their fraction. -/
def latest : Instant := 9223372036854775807 * 1000000000 + 999999999

/-- The instant after a span of time, if the clock reaches it. -/
def after? (t : Instant) (d : Duration) : Option Instant :=
  if t + d ≤ latest then some (t + d) else none

end Instant

end Stun
