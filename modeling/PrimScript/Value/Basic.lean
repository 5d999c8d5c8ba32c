import PrimScript.Decimal.Expansion
import PrimScript.Geometry.Quat
import PrimScript.Key
import PrimScript.Syntax.ValueType

/-! Values.  A script's lists hold no lists, but the type allows them: what keeps them out is how
lists are built. -/

namespace PrimScript

inductive Value
  | integer (n : Int32) : Value
  | float (x : Float) : Value
  | string (s : String) : Value
  | key (k : String) : Value
  | vector (v : Vector3) : Value
  | rotation (r : Rotation) : Value
  | list (items : List Value) : Value
  deriving Inhabited

namespace Value

def type : Value → ValueType
  | .integer _ => .integer
  | .float _ => .float
  | .string _ => .string
  | .key _ => .key
  | .vector _ => .vector
  | .rotation _ => .rotation
  | .list _ => .list

def zero : ValueType → Value
  | .integer => .integer 0
  | .float => .float 0
  | .string => .string ""
  | .key => .key Key.null
  | .vector => .vector Vector3.zero
  | .rotation => .rotation Rotation.identity
  | .list => .list []

@[simp] theorem type_zero (t : ValueType) : (zero t).type = t := by cases t <;> rfl

def ofBool (b : Bool) : Value := .integer (if b then 1 else 0)

def ofKey (s : String) : Value := .key (Key.normalize s)

def floatOf (n : Int32) : Float :=
  let size := n.toInt.natAbs.toUInt64.toFloat
  if n < 0 then -size else size

def isNumeric : Value → Bool
  | .integer _ => true
  | .float _ => true
  | _ => false

def asList : Value → List Value
  | .list items => items
  | v => [v]

def splice (vs : List Value) : Value := .list (vs.flatMap asList)

def truthy : Value → Bool
  | .integer n => n != 0
  | .float x => x != 0
  | .string s => s != ""
  | .key k => Key.isValid k && !Key.isNull k
  | .vector v => !v.isZero
  | .rotation r => !r.isZero
  | .list items => !items.isEmpty

def vectorText (v : Vector3) : List Char :=
  '<' :: Decimal.Expansion.fixed 5 (.ofFloat v.x) ++ ',' :: ' ' ::
    Decimal.Expansion.fixed 5 (.ofFloat v.y) ++ ',' :: ' ' ::
    Decimal.Expansion.fixed 5 (.ofFloat v.z) ++ ['>']

def rotationText (r : Rotation) : List Char :=
  '<' :: Decimal.Expansion.fixed 5 (.ofFloat r.x) ++ ',' :: ' ' ::
    Decimal.Expansion.fixed 5 (.ofFloat r.y) ++ ',' :: ' ' ::
    Decimal.Expansion.fixed 5 (.ofFloat r.z) ++ ',' :: ' ' ::
    Decimal.Expansion.fixed 5 (.ofFloat r.s) ++ ['>']

mutual

def chars : Value → List Char
  | .integer n => Decimal.integerText n.toInt
  | .float x => Decimal.Expansion.fixed 6 (.ofFloat x)
  | .string s => s.toList
  | .key k => k.toList
  | .vector v => vectorText v
  | .rotation r => rotationText r
  | .list items => charsOfItems items

def charsOfItems : List Value → List Char
  | [] => []
  | v :: vs => chars v ++ charsOfItems vs

end

def text (v : Value) : String := String.ofList v.chars

mutual

/-- Equality of type and of content; floats compare as numbers. -/
def identical : Value → Value → Bool
  | .integer a, .integer b => a == b
  | .float a, .float b => a == b
  | .string a, .string b => a == b
  | .key a, .key b => a == b
  | .vector a, .vector b => a.same b
  | .rotation a, .rotation b => a.same b
  | .list as, .list bs => identicalItems as bs
  | _, _ => false

def identicalItems : List Value → List Value → Bool
  | [], [] => true
  | a :: as, b :: bs => identical a b && identicalItems as bs
  | _, _ => false

end

end Value

end PrimScript
