/-! JSON values.  Integers and floating point numbers are told apart, and the fields of an object
keep their order and their duplicates, because readers of records care about both. -/

namespace PrimScript

inductive Json
  | null : Json
  | bool (b : Bool) : Json
  | int (n : Int) : Json
  | num (x : Float) : Json
  | str (s : String) : Json
  | arr (items : List Json) : Json
  | obj (fields : List (String × Json)) : Json
  deriving Inhabited

namespace Json

mutual

def depth : Json → Nat
  | .arr items => depthOfItems items + 1
  | .obj fields => depthOfFields fields + 1
  | _ => 0

def depthOfItems : List Json → Nat
  | [] => 0
  | j :: js => max (depth j) (depthOfItems js)

def depthOfFields : List (String × Json) → Nat
  | [] => 0
  | (_, j) :: fields => max (depth j) (depthOfFields fields)

end

end Json

end PrimScript
