import PrimScript.Decimal.Numeral

/-! Keys: the hyphenated 36-character texts that identify objects, agents and requests. -/

namespace PrimScript.Key

def null : String := "00000000-0000-0000-0000-000000000000"

def hyphenAt (i : Nat) : Bool := i = 8 || i = 13 || i = 18 || i = 23

def wellFormedFrom : (i : Nat) → List Char → Bool
  | i, [] => i = 36
  | i, c :: cs => (if hyphenAt i then c = '-' else Decimal.isHexDigit c) && wellFormedFrom (i + 1) cs

def isValid (s : String) : Bool := wellFormedFrom 0 s.toList

/-- The canonical key a text holds: without the blanks around it, in lower case; a text that
holds none is the null key. -/
def normalize (s : String) : String :=
  let cs := Text.trim s.toList
  if wellFormedFrom 0 cs then String.ofList (cs.map Char.toLower) else null

def isNull (s : String) : Bool := s.toList.map Char.toLower = null.toList

def isCanonical (s : String) : Bool := isValid s && s.toList.map Char.toLower = s.toList

def hexDigits : (width n : Nat) → List Char
  | 0, _ => []
  | width + 1, n => hexDigits width (n / 16) ++ [Nat.digitChar (n % 16)]

/-- The `n`th key of the supply of fresh keys.  Its version digit is 4 and its variant digit 8. -/
def fresh (n : Nat) : String :=
  String.ofList <|
    hexDigits 8 (n / Nat.pow 2 48 + 0x5eed0000) ++ '-' :: hexDigits 4 0x1a2b ++ '-' :: '4' :: hexDigits 3 0x3c4 ++
      '-' :: '8' :: hexDigits 3 0xd5e ++ '-' :: hexDigits 12 n

end PrimScript.Key
