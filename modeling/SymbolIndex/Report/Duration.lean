/-!
# `SymbolIndex.Report.Duration` — a length of time in words

A length of time is given in one unit as a whole number, rounded to the nearest. A unit is used from
one and a half of it less half of the next smaller one, and a unit other than the second from two of
it on.
-/

namespace SymbolIndex.Report

/-- A unit of time with its length in seconds. -/
structure TimeUnit where
  seconds : Nat
  name : String
  deriving DecidableEq, Repr, Inhabited

/-- The units above the second, largest first. -/
def largeUnits : List TimeUnit :=
  [⟨31536000, "year"⟩, ⟨604800, "week"⟩, ⟨86400, "day"⟩, ⟨3600, "hour"⟩, ⟨60, "minute"⟩]

def second : TimeUnit := ⟨1, "second"⟩

/-- Whether a time is long enough for a unit, given the next smaller one. -/
def reaches (milliseconds : Nat) (unit next : TimeUnit) : Bool :=
  decide (1500 * unit.seconds ≤ milliseconds + 500 * next.seconds)

/-- How often a unit goes into a time, to the nearest. -/
def countOf (milliseconds : Nat) (unit : TimeUnit) : Nat :=
  (milliseconds + 500 * unit.seconds) / (1000 * unit.seconds)

/-- The unit for a time and the number of it. -/
def inUnits (milliseconds : Nat) : List TimeUnit → Nat × TimeUnit
  | [] => (countOf milliseconds second, second)
  | unit :: rest =>
    let next := rest.headD second
    if reaches milliseconds unit next then (max 2 (countOf milliseconds unit), unit)
    else inUnits milliseconds rest

/-- A length of time in words. -/
def durationText (milliseconds : Nat) : String :=
  let (n, unit) := inUnits milliseconds largeUnits
  Nat.repr n ++ " " ++ unit.name ++ (if n = 1 then "" else "s")

end SymbolIndex.Report
