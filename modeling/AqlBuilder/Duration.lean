/-!
# Durations

Spans of time in whole nanoseconds, and their text: the largest unit of which there is at least one,
with the decimals that are needed.
-/

namespace AqlBuilder

-- Powers are those of core, whatever else is imported.
attribute [local instance (2000)] instPowNat

/-- A span of time. -/
structure Duration where
  nanoseconds : Nat
  deriving DecidableEq, Inhabited

namespace Duration

/-- A duration of whole milliseconds. -/
def ofMilliseconds (n : Nat) : Duration := ⟨n * 1000000⟩

/-- A duration of whole microseconds. -/
def ofMicroseconds (n : Nat) : Duration := ⟨n * 1000⟩

/-- A duration of whole seconds. -/
def ofSeconds (n : Nat) : Duration := ⟨n * 1000000000⟩

/-- The whole milliseconds of a duration. -/
def milliseconds (d : Duration) : Nat := d.nanoseconds / 1000000

/-- The decimals of `rest` in units of `10 ^ places`, without zeros at the end. -/
def decimals (places rest : Nat) : String :=
  let digits := (Nat.toDigits 10 rest)
  let padded := List.replicate (places - digits.length) '0' ++ digits
  match (padded.reverse.dropWhile (· == '0')).reverse with
  | [] => ""
  | kept => "." ++ String.ofList kept

/-- A count of nanoseconds in units of `10 ^ places` nanoseconds. -/
def inUnit (nanoseconds places : Nat) (name : String) : String :=
  toString (nanoseconds / 10 ^ places) ++ decimals places (nanoseconds % 10 ^ places) ++ name

/-- The text of a duration. -/
def text (d : Duration) : String :=
  if 1000000000 ≤ d.nanoseconds then inUnit d.nanoseconds 9 "s"
  else if 1000000 ≤ d.nanoseconds then inUnit d.nanoseconds 6 "ms"
  else if 1000 ≤ d.nanoseconds then inUnit d.nanoseconds 3 "µs"
  else toString d.nanoseconds ++ "ns"

end Duration

end AqlBuilder
