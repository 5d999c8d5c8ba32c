import PrimScript.Value.Coerce
import PrimScript.Syntax.Operator

/-! What the operators do with values.  A pair of operands that an operator is not defined for
has no result. -/

namespace PrimScript.Value

def floats? : Value → Value → Option (Float × Float)
  | .integer a, .integer b => some (floatOf a, floatOf b)
  | .integer a, .float b => some (floatOf a, b)
  | .float a, .integer b => some (a, floatOf b)
  | .float a, .float b => some (a, b)
  | _, _ => none

def string? : Value → Option String
  | .string s => some s
  | .key k => some k
  | _ => none

def float? : Value → Option Float
  | .integer a => some (floatOf a)
  | .float a => some a
  | _ => none

def add : Value → Value → Option Value
  | .list as, .list bs => some (.list (as ++ bs))
  | .list as, b => some (.list (as ++ [b]))
  | a, .list bs => some (.list (a :: bs))
  | .integer a, .integer b => some (.integer (a + b))
  | .vector a, .vector b => some (.vector (a.add b))
  | .rotation a, .rotation b => some (.rotation (a.add b))
  | a, b =>
    match string? a, string? b with
    | some s, some t => some (.string (s ++ t))
    | _, _ => (floats? a b).map fun (x, y) => .float (x + y)

def subtract : Value → Value → Option Value
  | .integer a, .integer b => some (.integer (a - b))
  | .vector a, .vector b => some (.vector (a.sub b))
  | .rotation a, .rotation b => some (.rotation (a.sub b))
  | a, b => (floats? a b).map fun (x, y) => .float (x - y)

def multiply : Value → Value → Option Value
  | .integer a, .integer b => some (.integer (a * b))
  | .vector a, .vector b => some (.float (a.dot b))
  | .vector a, .rotation b => some (.vector (b.apply a))
  | .vector a, b => (float? b).map fun k => .vector (a.scale k)
  | a, .vector b => (float? a).map fun k => .vector (b.scale k)
  | .rotation a, .rotation b => some (.rotation (a.compose b))
  | a, b => (floats? a b).map fun (x, y) => .float (x * y)

def divide : Value → Value → Option Value
  | .integer a, .integer b => some (.integer (if b = 0 then 0 else a / b))
  | .vector a, .rotation b => some (.vector (b.conjugate.apply a))
  | .vector a, b => (float? b).map fun k => .vector (a.scale (1 / k))
  | .rotation a, .rotation b => some (.rotation (a.compose b.conjugate))
  | a, b => (floats? a b).map fun (x, y) => .float (x / y)

/-- The remainder has the sign of the dividend; a remainder by zero is zero. -/
def modulo : Value → Value → Option Value
  | .integer a, .integer b => some (.integer (if b = 0 then 0 else a % b))
  | .vector a, .vector b => some (.vector (a.cross b))
  | _, _ => none

/-- Equality as the operator `==` has it: lists are equal when they are equally long. -/
def equal : Value → Value → Bool
  | .list as, .list bs => as.length == bs.length
  | .integer a, .integer b => a == b
  | .vector a, .vector b => a.same b
  | .rotation a, .rotation b => a.same b
  | a, b =>
    match string? a, string? b with
    | some s, some t => s == t
    | _, _ =>
      match floats? a b with
      | some (x, y) => x == y
      | none => false

/-- The difference in length for lists, and otherwise whether the operands differ. -/
def notEqual : Value → Value → Value
  | .list as, .list bs => .integer (Int32.ofInt (as.length - bs.length))
  | a, b => ofBool (!equal a b)

def compareBy (onIntegers : Int32 → Int32 → Bool) (onFloats : Float → Float → Bool) :
    Value → Value → Option Value
  | .integer a, .integer b => some (ofBool (onIntegers a b))
  | a, b => (floats? a b).map fun (x, y) => ofBool (onFloats x y)

def bitwise (f : Int32 → Int32 → Int32) : Value → Value → Option Value
  | .integer a, .integer b => some (.integer (f a b))
  | _, _ => none

/-- Shifts take the amount modulo 32; the one to the right keeps the sign. -/
def applyBinary : BinaryOp → Value → Value → Option Value
  | .add, a, b => add a b
  | .subtract, a, b => subtract a b
  | .multiply, a, b => multiply a b
  | .divide, a, b => divide a b
  | .modulo, a, b => modulo a b
  | .equal, a, b => some (ofBool (equal a b))
  | .notEqual, a, b => some (notEqual a b)
  | .lessThan, a, b => compareBy (fun a b => a < b) (fun a b => a < b) a b
  | .greaterThan, a, b => compareBy (fun a b => b < a) (fun a b => b < a) a b
  | .lessThanEqual, a, b => compareBy (fun a b => a ≤ b) (fun a b => a ≤ b) a b
  | .greaterThanEqual, a, b => compareBy (fun a b => b ≤ a) (fun a b => b ≤ a) a b
  | .and, a, b => some (ofBool (a.truthy && b.truthy))
  | .or, a, b => some (ofBool (a.truthy || b.truthy))
  | .bitAnd, a, b => bitwise (· &&& ·) a b
  | .bitOr, a, b => bitwise (· ||| ·) a b
  | .bitXor, a, b => bitwise (· ^^^ ·) a b
  | .shiftLeft, a, b => bitwise (fun a b => a <<< (b &&& 31)) a b
  | .shiftRight, a, b => bitwise (fun a b => a >>> (b &&& 31)) a b

def applyUnary : UnaryOp → Value → Option Value
  | .not, v => some (ofBool (!v.truthy))
  | .plus, .list _ => none
  | .plus, v => some v
  | .negate, .integer n => some (.integer (-n))
  | .negate, .float x => some (.float (-x))
  | .negate, .vector v => some (.vector (v.scale (-1)))
  | .negate, .rotation r => some (.rotation r.neg)
  | .bitNot, .integer n => some (.integer (~~~n))
  | _, _ => none

end PrimScript.Value
