import PrimScript.Text.CaseTable

/-! Upper and lower case of texts.  One character may become several, and a capital sigma that
ends a word becomes a final sigma. -/

namespace PrimScript.Text

def shifted? (ranges : List CaseRange) (c : Char) : Option Char :=
  let n := c.toNat
  (ranges.find? fun r => r.first ≤ n && n ≤ r.last && (n - r.first) % r.step = 0).map fun r =>
    Char.ofNat ((n : Int) + r.shift).toNat

def within (ranges : List (Nat × Nat)) (c : Char) : Bool :=
  ranges.any fun r => r.1 ≤ c.toNat && c.toNat ≤ r.2

def upperChar (c : Char) : List Char :=
  match upperTexts.find? (·.1 = c.toNat) with
  | some (_, cs) => cs.map Char.ofNat
  | none => [(shifted? upperRanges c).getD c]

def upper (cs : List Char) : List Char := cs.flatMap upperChar

/-- Is the first of the characters that count a cased one? -/
def startsCased (cs : List Char) : Bool :=
  match cs.dropWhile (within caseIgnorableRanges) with
  | c :: _ => within casedRanges c
  | [] => false

/-- The lower case of a character that has `before` before it, in reverse, and `after` after it. -/
def lowerChar (before : List Char) (c : Char) (after : List Char) : List Char :=
  if c = 'Σ' then [if startsCased before && !startsCased after then 'ς' else 'σ']
  else if c = 'İ' then ['i', '\u0307']
  else [(shifted? lowerRanges c).getD c]

def lowerFrom (before : List Char) : List Char → List Char
  | [] => []
  | c :: cs => lowerChar before c cs ++ lowerFrom (c :: before) cs

def lower (cs : List Char) : List Char := lowerFrom [] cs

end PrimScript.Text
