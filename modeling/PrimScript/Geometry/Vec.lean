/-! Vectors with three components over any scalar. -/

namespace PrimScript

structure Vec (R : Type) where
  x : R
  y : R
  z : R
  deriving DecidableEq, Repr

namespace Vec

variable {R : Type}

def add [Add R] (a b : Vec R) : Vec R := ⟨a.x + b.x, a.y + b.y, a.z + b.z⟩

def sub [Sub R] (a b : Vec R) : Vec R := ⟨a.x - b.x, a.y - b.y, a.z - b.z⟩

def dot [Add R] [Mul R] (a b : Vec R) : R := a.x * b.x + a.y * b.y + a.z * b.z

def cross [Sub R] [Mul R] (a b : Vec R) : Vec R :=
  ⟨a.y * b.z - a.z * b.y, a.z * b.x - a.x * b.z, a.x * b.y - a.y * b.x⟩

def scale [Mul R] (v : Vec R) (k : R) : Vec R := ⟨v.x * k, v.y * k, v.z * k⟩

end Vec

abbrev Vector3 := Vec Float

namespace Vector3

def zero : Vector3 := ⟨0, 0, 0⟩

def magnitude (v : Vector3) : Float := (v.dot v).sqrt

def normalize (v : Vector3) : Vector3 :=
  if v.magnitude == 0 then zero else v.scale (1 / v.magnitude)

def isZero (v : Vector3) : Bool := v.x == 0 && v.y == 0 && v.z == 0

def same (a b : Vector3) : Bool := a.x == b.x && a.y == b.y && a.z == b.z

end Vector3

end PrimScript
