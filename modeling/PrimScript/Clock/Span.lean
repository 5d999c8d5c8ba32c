import PrimScript.Decimal.Expansion

/-! Spans of time in nanoseconds, and the clock's granularity of a millisecond. -/

namespace PrimScript.Span

def milli : Nat := 1000000

def second : Nat := 1000000000

def ofMillis (n : Nat) : Nat := n * milli

def toMillis (span : Nat) : Nat := span / milli

/-- Spans that need more than 64 bits for their seconds are too long. -/
def limit : Nat := Nat.pow 2 64 * second

def horizon : Nat := Nat.pow 2 63 * second

def isAsked (seconds : Float) : Bool := 0 < seconds && seconds.isFinite

/-- The span of a number of seconds, rounded to the nearest nanosecond; none when it is too
long, infinite or negative. -/
def ofSeconds? (seconds : Float) : Option Nat :=
  match Decimal.Expansion.ofFloat seconds with
  | .finite negative m q =>
    let span := Decimal.roundScaled m q second
    if (negative ∧ m ≠ 0) ∨ limit ≤ span then none else some span
  | _ => none

def toSeconds (span : Nat) : Float := (span / second).toFloat + (span % second).toFloat / 1e9

def nextMilli (time : Nat) : Nat := (time + (milli - 1)) / milli * milli

theorem le_nextMilli (time : Nat) : time ≤ nextMilli time := by
  unfold nextMilli milli
  omega

end PrimScript.Span
