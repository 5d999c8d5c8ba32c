import PrimScript.Decimal.Numeral
import PrimScript.Decimal.Shortest
import PrimScript.Json.Basic

/-! Writing JSON text: on one line, or indented by two spaces a level.  Floating point numbers are
written with the shortest digits that read back, with a point or an exponent; those that JSON
cannot write become `null`. -/

namespace PrimScript.Json

def exponential (ds : List Char) (e : Int) : List Char :=
  match ds with
  | [] => []
  | [d] => d :: 'e' :: Decimal.integerText e
  | d :: ds => d :: '.' :: ds ++ 'e' :: Decimal.integerText e

/-- A positive number from its shortest digits: positional from `10 ^ -5` up to `10 ^ 16`, a whole
number with `.0`, and with an exponent outside that range. -/
def digitsText (d : Decimal.Digits) : List Char :=
  let ds := Nat.toDigits 10 d.digits
  let point : Int := ds.length + d.power
  if 0 ≤ d.power ∧ point ≤ 16 then d.positional ++ ['.', '0']
  else if -5 < point ∧ point ≤ 16 then d.positional
  else exponential ds (point - 1)

def floatText (x : Float) : List Char :=
  match Decimal.Expansion.ofFloat x with
  | .finite negative m q =>
    Decimal.signed negative
      (if m = 0 then ['0', '.', '0'] else digitsText (Decimal.shortestDigits m q))
  | _ => ['n', 'u', 'l', 'l']

def escapedChar (c : Char) : List Char :=
  match c with
  | '"' => ['\\', '"']
  | '\\' => ['\\', '\\']
  | '\n' => ['\\', 'n']
  | '\r' => ['\\', 'r']
  | '\t' => ['\\', 't']
  | '\x08' => ['\\', 'b']
  | '\x0c' => ['\\', 'f']
  | c =>
    if c.toNat < 0x20 then
      ['\\', 'u', '0', '0', Nat.digitChar (c.toNat / 16), Nat.digitChar (c.toNat % 16)]
    else [c]

def stringText (s : String) : List Char := '"' :: s.toList.flatMap escapedChar ++ ['"']

mutual

def chars : Json → List Char
  | .null => ['n', 'u', 'l', 'l']
  | .bool true => ['t', 'r', 'u', 'e']
  | .bool false => ['f', 'a', 'l', 's', 'e']
  | .int n => Decimal.integerText n
  | .num x => floatText x
  | .str s => stringText s
  | .arr items => '[' :: charsOfItems items ++ [']']
  | .obj fields => '\x7b' :: charsOfFields fields ++ ['\x7d']

def charsOfItems : List Json → List Char
  | [] => []
  | [j] => chars j
  | j :: js => chars j ++ ',' :: charsOfItems js

def charsOfFields : List (String × Json) → List Char
  | [] => []
  | [(name, j)] => stringText name ++ ':' :: chars j
  | (name, j) :: fields => stringText name ++ ':' :: chars j ++ ',' :: charsOfFields fields

end

def newLine (level : Nat) : List Char := '\n' :: List.replicate (2 * level) ' '

mutual

def prettyChars (level : Nat) : Json → List Char
  | .arr [] => ['[', ']']
  | .arr items =>
    '[' :: newLine (level + 1) ++ prettyItems (level + 1) items ++ newLine level ++ [']']
  | .obj [] => ['\x7b', '\x7d']
  | .obj fields =>
    '\x7b' :: newLine (level + 1) ++ prettyFields (level + 1) fields ++ newLine level ++ ['\x7d']
  | .null => ['n', 'u', 'l', 'l']
  | .bool true => ['t', 'r', 'u', 'e']
  | .bool false => ['f', 'a', 'l', 's', 'e']
  | .int n => Decimal.integerText n
  | .num x => floatText x
  | .str s => stringText s

def prettyItems (level : Nat) : List Json → List Char
  | [] => []
  | [j] => prettyChars level j
  | j :: js => prettyChars level j ++ ',' :: newLine level ++ prettyItems level js

def prettyFields (level : Nat) : List (String × Json) → List Char
  | [] => []
  | [(name, j)] => stringText name ++ ':' :: ' ' :: prettyChars level j
  | (name, j) :: fields =>
    stringText name ++ ':' :: ' ' :: prettyChars level j ++ ',' :: newLine level ++
      prettyFields level fields

end

def compress (j : Json) : String := String.ofList (chars j)

def pretty (j : Json) : String := String.ofList (prettyChars 0 j)

end PrimScript.Json
