import PrimScript.Decimal.Expansion

/-! The shortest decimal digits that read back as a given floating point number, and of those the
nearest to it. -/

namespace PrimScript.Decimal

structure Digits where
  digits : Nat
  power : Int
  deriving DecidableEq, Repr

/-- The value `m · 2 ^ q` and the interval of reals that round to it, over a common denominator:
`low`, `value` and `high` are numerators. -/
structure Interval where
  low : Nat
  value : Nat
  high : Nat
  den : Nat
  closed : Bool

/-- The interval around `m · 2 ^ q`.  Below a power of two the neighbour is half as far away,
except at the least exponent; the ends belong to it when `m` is even. -/
def Interval.around (m : Nat) (q : Int) : Interval :=
  let narrow := m = Nat.pow 2 52 ∧ q ≠ -1074
  let quarters := if narrow then 4 * m - 1 else 4 * m - 2
  match q with
  | .ofNat e => ⟨quarters * Nat.pow 2 e, 4 * m * Nat.pow 2 e, (4 * m + 2) * Nat.pow 2 e, 4, m % 2 = 0⟩
  | .negSucc e => ⟨quarters, 4 * m, 4 * m + 2, 4 * Nat.pow 2 (e + 1), m % 2 = 0⟩

def Interval.contains (i : Interval) (num den : Nat) : Bool :=
  let x := num * i.den
  if i.closed then i.low * den ≤ x && x ≤ i.high * den else i.low * den < x && x < i.high * den

def powerOfTen : Int → Nat × Nat
  | .ofNat e => (Nat.pow 10 e, 1)
  | .negSucc e => (1, Nat.pow 10 (e + 1))

/-- The two multiples of `10 ^ power` next to the value, those in the interval, the nearer one;
of two equally near ones the even one. -/
def Interval.onGrid (i : Interval) (power : Int) : Option Digits :=
  let (pn, pd) := powerOfTen power
  let num := i.value * pd
  let den := i.den * pn
  let below := num / den
  let hits (d : Nat) : Bool := i.contains (d * pn) pd
  match hits below, hits (below + 1) with
  | false, false => none
  | true, false => some ⟨below, power⟩
  | false, true => some ⟨below + 1, power⟩
  | true, true => some ⟨roundDiv num den, power⟩

def magnitudeBelow (num den : Nat) : Nat → Int → Int
  | 0, k => k
  | n + 1, k =>
    let (pn, pd) := powerOfTen k
    if pn * den ≤ num * pd then k else magnitudeBelow num den n (k - 1)

/-- The largest `k` with `10 ^ k ≤ num / den`.  The binary logarithm leaves four candidates. -/
def magnitude (num den : Nat) : Int :=
  let twos : Int := num.log2 - den.log2
  magnitudeBelow num den 4 ((twos + 1) * 30103 / 100000 + 1)

def Interval.search (i : Interval) : Nat → Int → Option Digits
  | 0, _ => none
  | n + 1, power => (i.onGrid power).or (i.search n (power - 1))

def Digits.trimmed (d : Digits) : Nat → Digits
  | 0 => d
  | n + 1 =>
    if d.digits ≠ 0 ∧ d.digits % 10 = 0 then Digits.trimmed ⟨d.digits / 10, d.power + 1⟩ n else d

/-- The shortest digits for `m · 2 ^ q`, `m` positive.  Seventeen digits always suffice. -/
def shortestDigits (m : Nat) (q : Int) : Digits :=
  let i := Interval.around m q
  match i.search 19 (magnitude i.value i.den + 1) with
  | some d => d.trimmed 20
  | none => ⟨0, 0⟩

def Digits.positional (d : Digits) : List Char :=
  match d.power with
  | .ofNat e => Nat.toDigits 10 (d.digits * Nat.pow 10 e)
  | .negSucc e => placed (e + 1) d.digits

def plain (x : Float) : String :=
  String.ofList <|
    match Expansion.ofFloat x with
    | .nan => ['N', 'a', 'N']
    | .infinite negative => signed negative ['i', 'n', 'f']
    | .finite negative m q =>
      signed negative (if m = 0 then ['0'] else (shortestDigits m q).positional)

end PrimScript.Decimal
