/-!
# Lengths of time

A length of time is a number of nanoseconds. The clock of the library ticks in whole milliseconds,
so a wait of some length ends at the first tick that is not before its end: it lasts
`Duration.ticks` ticks.
-/

namespace ClusterClient

/-- A length of time in nanoseconds. -/
structure Duration where
  nanos : Nat
  deriving DecidableEq, Repr

namespace Duration

def ofSeconds (n : Nat) : Duration := ⟨n * 1000000000⟩

def ofMillis (n : Nat) : Duration := ⟨n * 1000000⟩

def ofMicros (n : Nat) : Duration := ⟨n * 1000⟩

/-- The whole milliseconds that a wait of this length takes: part of one counts as one. -/
def ticks (d : Duration) : Nat := (d.nanos + 999999) / 1000000

-- A length of whole milliseconds takes exactly those.
theorem ticks_ofMillis (n : Nat) : (ofMillis n).ticks = n := by
  simp only [ticks, ofMillis]; omega

-- A wait is never cut short.
theorem nanos_le_ticks (d : Duration) : d.nanos ≤ d.ticks * 1000000 := by
  simp only [ticks]; omega

/-- The digits of `part` after a decimal point, `width` of them, without the zeros at the end. -/
def fraction (part width : Nat) : String :=
  let digits := Nat.toDigits 10 part
  let padded := List.replicate (width - digits.length) '0' ++ digits
  let kept := (padded.reverse.dropWhile (· == '0')).reverse
  if kept.isEmpty then "" else "." ++ String.ofList kept

/-- `whole` units and `part` of `10 ^ width` of a unit. -/
def decimal (whole part width : Nat) (unit : String) : String :=
  toString whole ++ fraction part width ++ unit

/-- A length in the largest of seconds, milliseconds, microseconds and nanoseconds of which it has
at least one, exactly. -/
def text (d : Duration) : String :=
  let n := d.nanos
  if n ≥ 1000000000 then decimal (n / 1000000000) (n % 1000000000) 9 "s"
  else if n ≥ 1000000 then decimal (n / 1000000) (n % 1000000) 6 "ms"
  else if n ≥ 1000 then decimal (n / 1000) (n % 1000) 3 "µs"
  else toString n ++ "ns"

end Duration

end ClusterClient
