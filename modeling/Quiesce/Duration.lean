/-!
# Durations

A span of time in whole nanoseconds, and its exact text: the largest unit among seconds,
milliseconds, microseconds and nanoseconds whose whole part is not zero, then the fraction without
trailing zeros. Nothing is rounded. The messages of `SuspendError` state durations so.
-/

namespace Quiesce

/-- A span of time, counted in nanoseconds. -/
structure Duration where
  nanoseconds : Nat
deriving DecidableEq, Repr

namespace Duration

/-- Seconds and a further number of nanoseconds, which may exceed one second. -/
def ofParts (seconds nanoseconds : Nat) : Duration :=
  ⟨seconds * 1000000000 + nanoseconds⟩

def ofMilliseconds (ms : Nat) : Duration :=
  ⟨ms * 1000000⟩

/-- A unit of the text form: the power of ten that it is in nanoseconds, and its name. -/
structure Scale where
  digits : Nat
  name : String

def Scale.length (u : Scale) : Nat := Nat.pow 10 u.digits

/-- The units, longest first. -/
def scales : List Scale :=
  [⟨9, "s"⟩, ⟨6, "ms"⟩, ⟨3, "µs"⟩, ⟨0, "ns"⟩]

/-- The longest unit that fits at least once; nanoseconds for the empty span. -/
def scale (d : Duration) : Scale :=
  (scales.find? fun u => u.length ≤ d.nanoseconds).getD ⟨0, "ns"⟩

/-- The last `width` decimal digits of `n`, leading zeros kept. -/
def lastDigits : Nat → Nat → List Char
  | 0, _ => []
  | width + 1, n => lastDigits width (n / 10) ++ [Nat.digitChar (n % 10)]

/-- A fraction of `width` digits after its point, trailing zeros dropped; nothing for zero. -/
def fraction (width n : Nat) : List Char :=
  match ((lastDigits width n).reverse.dropWhile (· = '0')).reverse with
  | [] => []
  | digits => '.' :: digits

/-- The text of a duration, such as `12.34ms`. -/
def render (d : Duration) : String :=
  let u := d.scale
  let whole := toString (d.nanoseconds / u.length)
  whole ++ String.ofList (fraction u.digits (d.nanoseconds % u.length)) ++ u.name

example : (ofParts 0 0).render = "0ns" := by decide +kernel

example : (ofParts 0 1500).render = "1.5µs" := by decide +kernel

example : (ofParts 1 1).render = "1.000000001s" := by decide +kernel

end Duration

end Quiesce
