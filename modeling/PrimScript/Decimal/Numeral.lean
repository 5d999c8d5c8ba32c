import PrimScript.Text.Blank

/-! Numerals: the numbers that digits stand for, and the floating point number that the whole of a text is. -/

namespace PrimScript.Decimal

def isDigit (c : Char) : Bool := '0' ≤ c && c ≤ '9'

def isHexDigit (c : Char) : Bool := isDigit c || ('a' ≤ c && c ≤ 'f') || ('A' ≤ c && c ≤ 'F')

/-- The value of a hexadecimal digit; of another character nothing is said. -/
def hexValue (c : Char) : Nat :=
  if isDigit c then c.toNat - '0'.toNat
  else if 'a' ≤ c && c ≤ 'f' then c.toNat - 'a'.toNat + 10
  else c.toNat - 'A'.toNat + 10

def ofDigits (base : Nat) (cs : List Char) : Nat :=
  cs.foldl (fun n c => n * base + hexValue c) 0

/-- The number that digits in a base stand for, as far as 64 bits are enough. -/
def word? (base : Nat) (cs : List Char) : Option Nat :=
  if ofDigits base cs < Nat.pow 2 64 then some (ofDigits base cs) else none

/-- What stands in a text before its end `rest`. -/
def before (rest cs : List Char) : List Char := cs.take (cs.length - rest.length)

def scanSign : List Char → Bool × List Char
  | '-' :: cs => (true, cs)
  | '+' :: cs => (false, cs)
  | cs => (false, cs)

/-- An unsigned decimal numeral: its digits before and after the point, whether it has a point,
and the power of ten it is scaled by, if one is written. -/
structure Numeral where
  whole : List Char
  fraction : List Char
  point : Bool
  exponent : Option Int
  deriving DecidableEq, Repr

def infinity : Float := 1.0 / 0.0

def notANumber : Float := 0.0 / 0.0

/-- The floating point number nearest to `digits · 10 ^ scale`, where `digits` has at most `count`
decimal digits.  Numbers from `10 ^ 310` on are infinite, and those below `10 ^ -330` zero. -/
def nearest (digits count : Nat) (scale : Int) : Float :=
  if digits = 0 ∨ scale + count < -330 then 0
  else if 310 < scale then infinity
  else Float.ofScientific digits (scale < 0) scale.natAbs

def Numeral.toFloat (n : Numeral) : Float :=
  let digits := n.whole ++ n.fraction
  nearest (ofDigits 10 digits) digits.length (n.exponent.getD 0 - n.fraction.length)

def scanExponent (cs : List Char) : Option Int × List Char :=
  match cs with
  | c :: rest =>
    if c = 'e' ∨ c = 'E' then
      let (negative, body) := scanSign rest
      match body.takeWhile isDigit with
      | [] => (none, cs)
      | ds =>
        let n : Int := ofDigits 10 ds
        (some (if negative then -n else n), body.dropWhile isDigit)
    else (none, cs)
  | [] => (none, [])

def scanNumeral (cs : List Char) : Option (Numeral × List Char) :=
  let whole := cs.takeWhile isDigit
  match cs.dropWhile isDigit with
  | '.' :: rest =>
    let fraction := rest.takeWhile isDigit
    if whole = [] ∧ fraction = [] then none
    else
      let (exponent, rest) := scanExponent (rest.dropWhile isDigit)
      some (⟨whole, fraction, true, exponent⟩, rest)
  | rest =>
    if whole = [] then none
    else
      let (exponent, rest) := scanExponent rest
      some (⟨whole, [], false, exponent⟩, rest)

def float? (cs : List Char) : Option Float :=
  let (negative, body) := scanSign cs
  let magnitude :=
    if body.map Char.toLower = ['i', 'n', 'f'] then some infinity
    else if body.map Char.toLower = ['i', 'n', 'f', 'i', 'n', 'i', 't', 'y'] then some infinity
    else if body.map Char.toLower = ['n', 'a', 'n'] then some notANumber
    else match scanNumeral body with
      | some (n, []) => some n.toFloat
      | _ => none
  magnitude.map fun x => if negative then -x else x

def integerText (n : Int) : List Char := signedDigits (n < 0) n.natAbs
where
  signedDigits (negative : Bool) (n : Nat) : List Char :=
    if negative then '-' :: Nat.toDigits 10 n else Nat.toDigits 10 n

end PrimScript.Decimal
