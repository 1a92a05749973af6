/-!
# Durations

A duration is a whole number of nanoseconds.  Its text uses the largest unit of which there is at
least one, followed by the rest as a decimal fraction without trailing zeros.
-/

namespace PodCache

/-- A span of time, counted in nanoseconds. -/
structure Duration where
  nanos : Nat
  deriving DecidableEq, Repr

namespace Duration

/-- The span of a number of seconds. -/
def seconds (n : Nat) : Duration := ⟨n * 1000000000⟩

/-- The span in milliseconds, a started millisecond counted as a whole one.  Timers have this
resolution. -/
def ticks (d : Duration) : Nat := (d.nanos + 999999) / 1000000

/-- The decimal digits of `n` after a point, `width` of them without trailing zeros; nothing when
they are all zero. -/
def fraction (width n : Nat) : String :=
  let digits := (Nat.toDigits 10 (Nat.pow 10 width + n)).drop 1
  let kept := (digits.reverse.dropWhile (· == '0')).reverse
  if kept.isEmpty then "" else "." ++ String.ofList kept

/-- The duration in the largest unit of seconds, milliseconds, microseconds and nanoseconds that
fits into it. -/
def text (d : Duration) : String :=
  let n := d.nanos
  if 1000000000 ≤ n then toString (n / 1000000000) ++ fraction 9 (n % 1000000000) ++ "s"
  else if 1000000 ≤ n then toString (n / 1000000) ++ fraction 6 (n % 1000000) ++ "ms"
  else if 1000 ≤ n then toString (n / 1000) ++ fraction 3 (n % 1000) ++ "µs"
  else toString n ++ "ns"

end Duration

end PodCache
