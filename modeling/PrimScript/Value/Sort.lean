import PrimScript.Value.Coerce

/-! Sorting lists: consecutive blocks of values are put in the order of their first values. -/

namespace PrimScript.Value

/-- The order of two values: numbers by size, texts by their characters, vectors by length.  Values
of kinds that do not compare count as equal. -/
def compareHeads (a b : Value) : Ordering :=
  let floats (x y : Float) : Ordering := if x < y then .lt else if y < x then .gt else .eq
  match a, b with
  | .string s, .string t => compare s t
  | .string s, .key t => compare s t
  | .key s, .string t => compare s t
  | .key s, .key t => compare s t
  | .vector v, .vector w => floats v.magnitude w.magnitude
  | a, b => if a.isNumeric && b.isNumeric then floats a.asFloat b.asFloat else .eq

def compareBlocks (ascending : Bool) (a b : List Value) : Ordering :=
  let order := compareHeads (a.headD (.integer 0)) (b.headD (.integer 0))
  if ascending then order else order.swap

/-- A block put in among sorted ones, which stand in reverse: before all that it goes before, from
the last one on. -/
def insertBlock (ascending : Bool) (block : List Value) : List (List Value) → List (List Value)
  | [] => [block]
  | last :: sorted =>
    if compareBlocks ascending block last = .lt then last :: insertBlock ascending block sorted
    else block :: last :: sorted

def blocks (size : Nat) : (count : Nat) → List Value → List (List Value)
  | 0, _ => []
  | _ + 1, [] => []
  | count + 1, v :: vs => (v :: vs).take size :: blocks size count ((v :: vs).drop size)

/-- The values with their blocks sorted; unchanged when they do not make whole blocks. -/
def sortBlocks (vs : List Value) (stride : Int32) (ascending : Bool) : List Value :=
  let size := if stride < 1 then 1 else stride.toInt.toNat
  if vs.length % size ≠ 0 then vs
  else
    let sorted := (blocks size vs.length vs).foldl
      (fun sorted block => insertBlock ascending block sorted) []
    sorted.reverse.flatten

end PrimScript.Value
