import PrimScript.Decimal.Numeral
import PrimScript.Json.Basic

/-! Reading JSON text.  A number without point and exponent is an integer when it fits in 64 bits;
any other is read as its leading digits, as many as fit in 64 bits, scaled by a power of ten, with
one rounding for the digits and one for the scaling. -/

namespace PrimScript.Json

def isBlank (c : Char) : Bool := c = ' ' || c = '\n' || c = '\t' || c = '\r'

def skipBlanks (cs : List Char) : List Char := cs.dropWhile isBlank

/-- Leading digits of a number that fit in 64 bits, and how many digits are left over. -/
def leadingDigits (start : Nat) : List Char → Nat × Nat
  | [] => (start, 0)
  | c :: cs =>
    let next := start * 10 + Decimal.hexValue c
    if next < Nat.pow 2 64 then leadingDigits next cs else (start, cs.length + 1)

/-- `x · 10 ^ e`; none when that is too large.  Powers of ten above 308 are applied in steps. -/
def scaled : (steps : Nat) → Float → Int → Option Float
  | _, x, .ofNat e =>
    if e ≤ 308 then
      let y := x * Float.ofScientific 1 false e
      if y.isInf then none else some y
    else if x == 0 then some x else none
  | 0, x, .negSucc _ => some x
  | steps + 1, x, .negSucc e =>
    if e + 1 ≤ 308 then some (x / Float.ofScientific 1 false (e + 1))
    else if x == 0 then some x
    else scaled steps (x / Float.ofScientific 1 false 308) (308 - (e + 1 : Nat))

/-- The integer written by a sign and digits; one that needs more than 64 bits, and minus zero,
are floating point numbers. -/
def integerNumber (negative : Bool) (whole : List Char) : Option Json :=
  let n := Decimal.ofDigits 10 whole
  if n < Nat.pow 2 64 then
    if !negative then some (.int n)
    else if n = 0 ∨ Nat.pow 2 63 < n then some (.num (-(Float.ofNat n)))
    else some (.int (-n))
  else
    let (digits, dropped) := leadingDigits 0 whole
    (scaled 4 (Float.ofNat digits) dropped).map fun x => .num (if negative then -x else x)

def scaledNumber (negative : Bool) (whole fraction : List Char) (exponent : Int) : Option Json :=
  let (digits, dropped) := leadingDigits 0 whole
  let (digits', dropped') := leadingDigits digits fraction
  let scale : Int := exponent + dropped - (fraction.length - dropped' : Nat)
  (scaled 4 (Float.ofNat digits') scale).map fun x => .num (if negative then -x else x)

def scanExponent : List Char → Option (Option Int × List Char)
  | c :: rest =>
    if c = 'e' ∨ c = 'E' then
      let (negative, body) := Decimal.scanSign rest
      match body.takeWhile Decimal.isDigit with
      | [] => none
      | ds =>
        let n : Int := Decimal.ofDigits 10 ds
        some (some (if negative then -n else n), body.dropWhile Decimal.isDigit)
    else some (none, c :: rest)
  | [] => some (none, [])

def scanUnsigned (negative : Bool) (cs : List Char) : Option (Json × List Char) :=
  let whole := cs.takeWhile Decimal.isDigit
  if whole = [] ∨ (whole.length > 1 ∧ whole.head? = some '0') then none
  else match cs.dropWhile Decimal.isDigit with
    | '.' :: rest =>
      let fraction := rest.takeWhile Decimal.isDigit
      if fraction = [] then none
      else do
        let (exponent, rest) ← scanExponent (rest.dropWhile Decimal.isDigit)
        let j ← scaledNumber negative whole fraction (exponent.getD 0)
        some (j, rest)
    | rest => do
      let (exponent, rest) ← scanExponent rest
      let j ← match exponent with
        | none => integerNumber negative whole
        | some e => scaledNumber negative whole [] e
      some (j, rest)

def scanNumber : List Char → Option (Json × List Char)
  | '-' :: rest => scanUnsigned true rest
  | cs => scanUnsigned false cs

def escaped? : Char → Option Char
  | '"' => some '"'
  | '\\' => some '\\'
  | '/' => some '/'
  | 'b' => some '\x08'
  | 'f' => some '\x0c'
  | 'n' => some '\n'
  | 'r' => some '\r'
  | 't' => some '\t'
  | _ => none

/-- The rest of a string whose opening quote has been read, onto the reversed `read`.  A unit
above the first plane is written as a pair of surrogates, and a surrogate stands only in a
pair. -/
def scanString (read : List Char) : List Char → Option (List Char × List Char)
  | [] => none
  | '"' :: rest => some (read.reverse, rest)
  | '\\' :: 'u' :: a :: b :: c :: d :: rest =>
    if !([a, b, c, d].all Decimal.isHexDigit) then none
    else
      let unit := Decimal.ofDigits 16 [a, b, c, d]
      if 0xD800 ≤ unit ∧ unit < 0xDC00 then
        match rest with
        | '\\' :: 'u' :: e :: f :: g :: h :: rest =>
          let low := Decimal.ofDigits 16 [e, f, g, h]
          if [e, f, g, h].all Decimal.isHexDigit ∧ 0xDC00 ≤ low ∧ low < 0xE000 then
            scanString (Char.ofNat (0x10000 + (unit - 0xD800) * 0x400 + (low - 0xDC00)) :: read) rest
          else none
        | _ => none
      else if 0xDC00 ≤ unit ∧ unit < 0xE000 then none
      else scanString (Char.ofNat unit :: read) rest
  | '\\' :: e :: rest =>
    match escaped? e with
    | some c => scanString (c :: read) rest
    | none => none
  | c :: rest => if c.toNat < 0x20 ∨ c = '\\' then none else scanString (c :: read) rest

mutual

def scanValue : (fuel : Nat) → List Char → Option (Json × List Char)
  | 0, _ => none
  | fuel + 1, cs =>
    match skipBlanks cs with
    | 'n' :: 'u' :: 'l' :: 'l' :: rest => some (.null, rest)
    | 't' :: 'r' :: 'u' :: 'e' :: rest => some (.bool true, rest)
    | 'f' :: 'a' :: 'l' :: 's' :: 'e' :: rest => some (.bool false, rest)
    | '"' :: rest => (scanString [] rest).map fun (s, rest) => (.str (String.ofList s), rest)
    | '[' :: rest =>
      match skipBlanks rest with
      | ']' :: rest => some (.arr [], rest)
      | _ => (scanItems fuel rest).map fun (items, rest) => (.arr items, rest)
    | '\x7b' :: rest =>
      match skipBlanks rest with
      | '\x7d' :: rest => some (.obj [], rest)
      | _ => (scanFields fuel rest).map fun (fields, rest) => (.obj fields, rest)
    | cs => scanNumber cs

def scanItems : (fuel : Nat) → List Char → Option (List Json × List Char)
  | 0, _ => none
  | fuel + 1, cs =>
    match scanValue fuel cs with
    | none => none
    | some (j, rest) =>
      match skipBlanks rest with
      | ',' :: rest => (scanItems fuel rest).map fun (items, rest) => (j :: items, rest)
      | ']' :: rest => some ([j], rest)
      | _ => none

def scanFields : (fuel : Nat) → List Char → Option (List (String × Json) × List Char)
  | 0, _ => none
  | fuel + 1, cs =>
    match skipBlanks cs with
    | '"' :: rest =>
      match scanString [] rest with
      | none => none
      | some (name, rest) =>
        match skipBlanks rest with
        | ':' :: rest =>
          match scanValue fuel rest with
          | none => none
          | some (j, rest) =>
            match skipBlanks rest with
            | ',' :: rest =>
              (scanFields fuel rest).map fun (fields, rest) => ((String.ofList name, j) :: fields, rest)
            | '\x7d' :: rest => some ([(String.ofList name, j)], rest)
            | _ => none
        | _ => none
    | _ => none

end

/-- The value that is the whole of a text, blanks around it apart.  Every nested value and every
item takes at least one character, so the length of the text bounds the recursion. -/
def readChars? (cs : List Char) : Option Json :=
  match scanValue (2 * cs.length + 1) cs with
  | some (j, rest) => if skipBlanks rest = [] then some j else none
  | none => none

def read? (s : String) : Option Json := readChars? s.toList

end PrimScript.Json
