import PrimScript.Decimal.Numeral
import PrimScript.Text.Utf8

/-! Escaping of texts for addresses: every byte that is not an ASCII letter or digit is written as a
percent sign and two hexadecimal digits. -/

namespace PrimScript.Text

def isUnescaped (b : Nat) : Bool :=
  (0x30 ≤ b && b ≤ 0x39) || (0x41 ≤ b && b ≤ 0x5A) || (0x61 ≤ b && b ≤ 0x7A)

def hexUpper (n : Nat) : Char := (Nat.digitChar n).toUpper

def escapeByte (b : Nat) : List Char :=
  if isUnescaped b then [Char.ofNat b] else ['%', hexUpper (b / 16), hexUpper (b % 16)]

def escape (cs : List Char) : List Char := (bytes cs).flatMap escapeByte

def hexByte? (b : Nat) : Option Nat :=
  let c := Char.ofNat b
  if b < 0x80 && Decimal.isHexDigit c then some (Decimal.hexValue c) else none

/-- The bytes with every escape among them replaced by the byte it stands for; a percent sign that
starts no escape stands for itself. -/
def unescapeBytes : List Nat → List Nat
  | [] => []
  | 0x25 :: h :: l :: bs =>
    match hexByte? h, hexByte? l with
    | some high, some low => (high * 16 + low) :: unescapeBytes bs
    | _, _ => 0x25 :: unescapeBytes (h :: l :: bs)
  | b :: bs => b :: unescapeBytes bs

def unescape (cs : List Char) : List Char := decode (unescapeBytes (bytes cs))

end PrimScript.Text
