/-
Spans of time and instants on the clock. A span is kept to the nanosecond; an
instant is the number of whole milliseconds since the clock was started, so a
timer set for a span goes off at the first whole millisecond that is not too
early (`Duration.ceilMillis`).
-/

namespace RpcClient

/-- A span of time, in whole nanoseconds. -/
structure Duration where
  nanos : Nat
deriving DecidableEq

namespace Duration

/-- The span of `ms` milliseconds. -/
def ofMillis (ms : Nat) : Duration := ⟨ms * 1000000⟩

/-- The span of `secs` seconds and `nanos` nanoseconds more. -/
def ofParts (secs nanos : Nat) : Duration := ⟨secs * 1000000000 + nanos⟩

/-- The whole seconds of a span. -/
def secs (d : Duration) : Nat := d.nanos / 1000000000

/-- What a span has beyond its whole seconds, in nanoseconds. -/
def subsecNanos (d : Duration) : Nat := d.nanos % 1000000000

/-- The whole milliseconds of a span; what is left over is dropped. -/
def millis (d : Duration) : Nat := d.nanos / 1000000

/-- The fewest whole milliseconds that are at least the span. -/
def ceilMillis (d : Duration) : Nat := (d.nanos + 999999) / 1000000

/-- When a timer set at `now` for the span `d` goes off. -/
def after (now : Nat) (d : Duration) : Nat := now + d.ceilMillis

/-- The whole milliseconds of a span, at most `limit`. -/
def millisUpTo (limit : Nat) (d : Duration) : Nat := min d.millis limit

theorem millis_ofMillis (ms : Nat) : (ofMillis ms).millis = ms := by
  simp [ofMillis, millis]

theorem ceilMillis_ofMillis (ms : Nat) : (ofMillis ms).ceilMillis = ms := by
  simp only [ofMillis, ceilMillis]; omega

theorem millis_le_ceilMillis (d : Duration) : d.millis ≤ d.ceilMillis := by
  simp only [millis, ceilMillis]; omega

/-! ## Text -/

/-- The digits of a fraction `frac / 10 ^ width`, without the zeros at its
end. -/
def fractionDigits (width frac : Nat) : List Char :=
  let digits := Nat.toDigits 10 frac
  let padded := List.replicate (width - digits.length) '0' ++ digits
  (padded.reverse.dropWhile (· == '0')).reverse

/-- The number `whole + frac / 10 ^ width`, then its unit. -/
def decimalText (whole frac width : Nat) (unit : String) : String :=
  let digits := fractionDigits width frac
  toString whole ++ (if digits.isEmpty then "" else "." ++ String.ofList digits) ++ unit

/-- A span is written in the largest of s, ms, µs and ns of which it has one
whole, with the exact fraction. -/
def text (d : Duration) : String :=
  if 1000000000 ≤ d.nanos then decimalText (d.nanos / 1000000000) (d.nanos % 1000000000) 9 "s"
  else if 1000000 ≤ d.nanos then decimalText (d.nanos / 1000000) (d.nanos % 1000000) 6 "ms"
  else if 1000 ≤ d.nanos then decimalText (d.nanos / 1000) (d.nanos % 1000) 3 "µs"
  else toString d.nanos ++ "ns"

end Duration

end RpcClient
