import PrimScript.Geometry.Vec

/-! Rotations as quaternions over any scalar, with the scalar part `s` last. -/

namespace PrimScript

structure Quat (R : Type) where
  x : R
  y : R
  z : R
  s : R
  deriving DecidableEq, Repr

namespace Quat

variable {R : Type}

def add [Add R] (a b : Quat R) : Quat R := ⟨a.x + b.x, a.y + b.y, a.z + b.z, a.s + b.s⟩

def sub [Sub R] (a b : Quat R) : Quat R := ⟨a.x - b.x, a.y - b.y, a.z - b.z, a.s - b.s⟩

def neg [Neg R] (a : Quat R) : Quat R := ⟨-a.x, -a.y, -a.z, -a.s⟩

def hamilton [Add R] [Sub R] [Mul R] (a b : Quat R) : Quat R :=
  ⟨a.s * b.x + a.x * b.s + a.y * b.z - a.z * b.y,
   a.s * b.y - a.x * b.z + a.y * b.s + a.z * b.x,
   a.s * b.z + a.x * b.y - a.y * b.x + a.z * b.s,
   a.s * b.s - a.x * b.x - a.y * b.y - a.z * b.z⟩

/-- `a` first, and `next` after it. -/
def compose [Add R] [Sub R] [Mul R] (a next : Quat R) : Quat R := next.hamilton a

def conjugate [Neg R] (a : Quat R) : Quat R := ⟨-a.x, -a.y, -a.z, a.s⟩

def normSq [Add R] [Mul R] (a : Quat R) : R := a.x * a.x + a.y * a.y + a.z * a.z + a.s * a.s

/-- The vector `v` turned by `q`: the vector part of `q v q*`. -/
def apply [Add R] [Sub R] [Mul R] [Neg R] [OfNat R 0] (q : Quat R) (v : Vec R) : Vec R :=
  let r := (q.hamilton ⟨v.x, v.y, v.z, 0⟩).hamilton q.conjugate
  ⟨r.x, r.y, r.z⟩

end Quat

abbrev Rotation := Quat Float

namespace Rotation

def identity : Rotation := ⟨0, 0, 0, 1⟩

def norm (r : Rotation) : Float := r.normSq.sqrt

/-- The rotation of norm one in the same direction; zero becomes the identity. -/
def normalize (r : Rotation) : Rotation :=
  if r.norm == 0 then identity else ⟨r.x / r.norm, r.y / r.norm, r.z / r.norm, r.s / r.norm⟩

def isZero (r : Rotation) : Bool := r.x == 0 && r.y == 0 && r.z == 0 && r.s == 0

def same (a b : Rotation) : Bool := a.x == b.x && a.y == b.y && a.z == b.z && a.s == b.s

end Rotation

end PrimScript
