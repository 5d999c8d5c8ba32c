/-! The exact value of a binary floating point number, as an integer times a power of two, the
rounding of quotients that decimal output rests on, and decimal text with a fixed number of places.
The digits of such a text are those of the exact value, rounded once; the sign of a negative zero, and
of a number that rounds to zero, is kept. -/

namespace PrimScript.Decimal

/-- A floating point number taken apart: a finite one is `± mantissa · 2 ^ exponent`. -/
inductive Expansion
  | nan : Expansion
  | infinite (negative : Bool) : Expansion
  | finite (negative : Bool) (mantissa : Nat) (exponent : Int) : Expansion
  deriving DecidableEq, Repr

def Expansion.ofBits (bits : UInt64) : Expansion :=
  let negative := bits >>> 63 == 1
  let biased := ((bits >>> 52) &&& 0x7FF).toNat
  let fraction := (bits &&& 0xFFFFFFFFFFFFF).toNat
  if biased = 0x7FF then
    if fraction = 0 then .infinite negative else .nan
  else if biased = 0 then .finite negative fraction (-1074)
  else .finite negative (fraction + Nat.pow 2 52) (biased - 1075)

def Expansion.ofFloat (x : Float) : Expansion := .ofBits x.toBits

/-- `num / den` rounded to the nearest integer, a half to the even neighbour. -/
def roundDiv (num den : Nat) : Nat :=
  let q := num / den
  let twice := 2 * (num % den)
  if twice < den then q
  else if den < twice then q + 1
  else q + q % 2

/-- `mantissa · 2 ^ exponent · scale`, rounded to the nearest integer, a half to the even
neighbour. -/
def roundScaled (mantissa : Nat) (exponent : Int) (scale : Nat) : Nat :=
  match exponent with
  | .ofNat e => mantissa * Nat.pow 2 e * scale
  | .negSucc e => roundDiv (mantissa * scale) (Nat.pow 2 (e + 1))

theorem roundDiv_mul (n : Nat) {den : Nat} (h : 0 < den) : roundDiv (n * den) den = n := by
  simp [roundDiv, Nat.mul_div_cancel _ h, h]

def digitsPadded (width n : Nat) : List Char :=
  let ds := Nat.toDigits 10 n
  List.replicate (width - ds.length) '0' ++ ds

/-- `n / 10 ^ places` written out: at least one digit before the point, `places` after it. -/
def placed (places n : Nat) : List Char :=
  let ds := digitsPadded (places + 1) n
  let whole := ds.length - places
  if places = 0 then ds else ds.take whole ++ '.' :: ds.drop whole

def signed (negative : Bool) (cs : List Char) : List Char := if negative then '-' :: cs else cs

def Expansion.fixed (places : Nat) : Expansion → List Char
  | .nan => ['N', 'a', 'N']
  | .infinite negative => signed negative ['i', 'n', 'f']
  | .finite negative m q => signed negative (placed places (roundScaled m q (Nat.pow 10 places)))

def fixed (places : Nat) (x : Float) : String :=
  String.ofList (Expansion.fixed places (.ofFloat x))

end PrimScript.Decimal
