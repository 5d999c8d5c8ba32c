import PrimScript.Geometry.Quat

/-! Rotations by angles: about the three axes in turn, or about one axis. -/

namespace PrimScript

def halfPi : Float := 1.5707963267948966

def isNegative (x : Float) : Bool := x.toBits >>> 63 == 1

namespace Rotation

def ofEuler (v : Vector3) : Rotation :=
  let sx := (v.x / 2).sin
  let cx := (v.x / 2).cos
  let sy := (v.y / 2).sin
  let cy := (v.y / 2).cos
  let sz := (v.z / 2).sin
  let cz := (v.z / 2).cos
  ⟨sx * cy * cz + cx * sy * sz, cx * sy * cz - sx * cy * sz, cx * cy * sz + sx * sy * cz,
    cx * cy * cz - sx * sy * sz⟩

/-- The angles about the axes.  When the second one is a right angle, the first one is zero. -/
def toEuler (r : Rotation) : Vector3 :=
  let m := r.normSq
  if m == 0 then Vector3.zero
  else
    let n := 2 * (r.y * r.s + r.x * r.z)
    let p := m * m - n * n
    if 0 < p then
      ⟨(2 * (r.x * r.s - r.y * r.z)).atan2 (-r.x * r.x - r.y * r.y + r.z * r.z + r.s * r.s),
       n.atan2 p.sqrt,
       (2 * (r.z * r.s - r.x * r.y)).atan2 (r.x * r.x - r.y * r.y - r.z * r.z + r.s * r.s)⟩
    else
      ⟨0, if isNegative n then -halfPi else halfPi,
       (r.z * r.s + r.x * r.y).atan2 (0.5 - r.x * r.x - r.z * r.z)⟩

def ofAxisAngle (axis : Vector3) (angle : Float) : Rotation :=
  let u := axis.normalize
  let s := (angle / 2).sin
  ⟨u.x * s, u.y * s, u.z * s, (angle / 2).cos⟩

def direction (r : Rotation) (unit : Vector3) : Vector3 := r.normalize.apply unit

def angleBetween (a b : Rotation) : Float :=
  let r := a.normalize.conjugate.compose b.normalize
  2 * (r.x * r.x + r.y * r.y + r.z * r.z).sqrt.atan2 r.s.abs

end Rotation

end PrimScript
