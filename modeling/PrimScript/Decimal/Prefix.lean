import PrimScript.Decimal.Numeral

/-! The number that a text begins with, after blanks.  It is looked for with regular expressions, which only
repeat single characters. -/

namespace PrimScript

inductive Regex
  | empty : Regex
  | char (p : Char → Bool) : Regex
  /-- As many of the characters as there are, or less where the rest fails then. -/
  | many (p : Char → Bool) : Regex
  | seq (first next : Regex) : Regex
  | or (left right : Regex) : Regex

namespace Regex

def runMany {α : Type} (p : Char → Bool) (next : List Char → Option α) : List Char → Option α
  | [] => next []
  | c :: cs => if p c then runMany p next cs <|> next (c :: cs) else next (c :: cs)

/-- Goes on with `next` after the first of the ways in which a text begins with a match, with which that does
not fail. -/
def run {α : Type} : Regex → List Char → (next : List Char → Option α) → Option α
  | .empty, cs, next => next cs
  | .char _, [], _ => none
  | .char p, c :: cs, next => if p c then next cs else none
  | .many p, cs, next => runMany p next cs
  | .seq r r', cs, next => r.run cs fun rest => r'.run rest next
  | .or r r', cs, next => r.run cs next <|> r'.run cs next

def plus (p : Char → Bool) : Regex := .seq (.char p) (.many p)

def optional (r : Regex) : Regex := .or r .empty

def letter (d : Char) : Regex := .char fun c => c = d || c = d.toUpper

def word : List Char → Regex
  | [] => .empty
  | d :: ds => .seq (letter d) (word ds)

end Regex

namespace Decimal

open Regex

def blanks : Regex := .many Text.isBlank

def sign : Regex := .optional (.char fun c => c = '+' || c = '-')

def integer : Regex :=
  .or (.seq (.char (· = '0')) (.seq (letter 'x') (.plus isHexDigit))) (.plus isDigit)

def exponent : Regex := .seq (letter 'e') (.seq sign (.plus isDigit))

def numeral : Regex :=
  .seq (.or (.seq (.plus isDigit) (.seq (.optional (.char (· = '.'))) (.many isDigit)))
    (.seq (.char (· = '.')) (.plus isDigit))) (.optional exponent)

def number : Regex :=
  .or (word ['i', 'n', 'f', 'i', 'n', 'i', 't', 'y']) <| .or (word ['i', 'n', 'f']) <|
    .or (word ['n', 'a', 'n']) numeral

/-- The number that a match of `integer` stands for; one that needs more than 64 bits counts as the greatest
of those that do not. -/
def unsignedOf (cs : List Char) : Nat :=
  let decimal := (word? 10 cs).getD (Nat.pow 2 64 - 1)
  match cs with
  | '0' :: x :: hs => if x = 'x' ∨ x = 'X' then (word? 16 hs).getD (Nat.pow 2 64 - 1) else decimal
  | _ => decimal

/-- The integer that a sign and a match of `integer` stand for.  It wraps up to 32 bits, and a number that
needs more is `-1`. -/
def integerOf (sign digits : List Char) : Int32 :=
  let n := unsignedOf digits
  let value : Int32 := if Nat.pow 2 32 - 1 < n then -1 else Int32.ofNat n
  if sign = ['-'] then -value else value

def integerPrefix (cs : List Char) : Int32 :=
  let found := blanks.run cs fun start => sign.run start fun body => integer.run body fun rest =>
    some (before body start, before rest body)
  match found with
  | some (sign, digits) => integerOf sign digits
  | none => 0

/-- The floating point number a text starts with, after blanks: a numeral, `inf`, `infinity` or `nan`, with a
sign or none. -/
def floatPrefix? (cs : List Char) : Option Float :=
  ((Regex.seq blanks (.seq sign number)).run cs some).bind fun rest => float? (Text.trim (before rest cs))

end Decimal

end PrimScript
