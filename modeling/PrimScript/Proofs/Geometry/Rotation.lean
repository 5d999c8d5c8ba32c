import Mathlib.Algebra.Quaternion
import PrimScript.Value.Operator

/-! Turning, with the scalars of any commutative ring.  A rotation is a quaternion, and a vector a quaternion
without a scalar part; what a rotation makes of a vector has none either, so that nothing is lost when the scalar
part is left out.  Rotations are multiplied in the order in which they turn, and dividing by one takes it back, up
to its norm. -/

namespace PrimScript

attribute [ext] Vec Quat

variable {R : Type}

section Operators

variable [Add R] [Sub R] [Mul R] [Neg R] [OfNat R 0]

instance : HMul (Vec R) (Quat R) (Vec R) := ⟨fun v q => q.apply v⟩

instance : Mul (Quat R) := ⟨Quat.compose⟩

instance : HDiv (Vec R) (Quat R) (Vec R) := ⟨fun v q => q.conjugate.apply v⟩

instance : Div (Quat R) := ⟨fun a b => a.compose b.conjugate⟩

end Operators

section Values

variable (v : Vector3) (a b : Rotation)

theorem multiply_vector_rotation : Value.multiply (.vector v) (.rotation a) = some (.vector (v * a)) := rfl

theorem multiply_rotations : Value.multiply (.rotation a) (.rotation b) = some (.rotation (a * b)) := rfl

theorem divide_vector_rotation : Value.divide (.vector v) (.rotation a) = some (.vector (v / a)) := rfl

theorem divide_rotations : Value.divide (.rotation a) (.rotation b) = some (.rotation (a / b)) := rfl

end Values

namespace Quat

variable [CommRing R] (a b : Quat R)

def toQuaternion (a : Quat R) : Quaternion R := ⟨a.s, a.x, a.y, a.z⟩

@[simp] theorem re_toQuaternion : a.toQuaternion.re = a.s := rfl

@[simp] theorem imI_toQuaternion : a.toQuaternion.imI = a.x := rfl

@[simp] theorem imJ_toQuaternion : a.toQuaternion.imJ = a.y := rfl

@[simp] theorem imK_toQuaternion : a.toQuaternion.imK = a.z := rfl

theorem toQuaternion_injective : Function.Injective (toQuaternion (R := R)) := by
  intro a b h
  exact Quat.ext (congrArg (·.imI) h) (congrArg (·.imJ) h) (congrArg (·.imK) h) (congrArg (·.re) h)

theorem toQuaternion_hamilton : (a.hamilton b).toQuaternion = a.toQuaternion * b.toQuaternion := by
  ext <;> simp [hamilton]

theorem toQuaternion_mul : (a * b).toQuaternion = b.toQuaternion * a.toQuaternion :=
  toQuaternion_hamilton b a

theorem toQuaternion_conjugate : a.conjugate.toQuaternion = star a.toQuaternion := by
  ext <;> simp [conjugate]

theorem toQuaternion_div : (a / b).toQuaternion = star b.toQuaternion * a.toQuaternion := by
  rw [← toQuaternion_conjugate]
  exact toQuaternion_mul a b.conjugate

theorem normSq_toQuaternion : Quaternion.normSq a.toQuaternion = a.normSq := by
  simp only [Quaternion.normSq_def', normSq, re_toQuaternion, imI_toQuaternion, imJ_toQuaternion,
    imK_toQuaternion]
  ring

end Quat

namespace Vec

variable [CommRing R] (v : Vec R) (q : Quat R)

def toQuaternion (v : Vec R) : Quaternion R := ⟨0, v.x, v.y, v.z⟩

@[simp] theorem re_toQuaternion : v.toQuaternion.re = 0 := rfl

@[simp] theorem imI_toQuaternion : v.toQuaternion.imI = v.x := rfl

@[simp] theorem imJ_toQuaternion : v.toQuaternion.imJ = v.y := rfl

@[simp] theorem imK_toQuaternion : v.toQuaternion.imK = v.z := rfl

theorem toQuaternion_injective : Function.Injective (toQuaternion (R := R)) := by
  intro v w h
  exact Vec.ext (congrArg (·.imI) h) (congrArg (·.imJ) h) (congrArg (·.imK) h)

theorem re_turned : (q.toQuaternion * v.toQuaternion * star q.toQuaternion).re = 0 := by
  simp only [Quaternion.re_mul, Quaternion.imI_mul, Quaternion.imJ_mul, Quaternion.imK_mul, Quaternion.re_star,
    Quaternion.imI_star, Quaternion.imJ_star, Quaternion.imK_star, re_toQuaternion, imI_toQuaternion,
    imJ_toQuaternion, imK_toQuaternion]
  ring

theorem toQuaternion_apply :
    (q.apply v).toQuaternion = q.toQuaternion * v.toQuaternion * star q.toQuaternion := by
  have hturned : q.toQuaternion * v.toQuaternion * star q.toQuaternion =
      ((q.hamilton ⟨v.x, v.y, v.z, 0⟩).hamilton q.conjugate).toQuaternion := by
    rw [Quat.toQuaternion_hamilton, Quat.toQuaternion_hamilton, Quat.toQuaternion_conjugate]
    rfl
  ext
  · exact (re_turned v q).symm
  · rw [hturned]; rfl
  · rw [hturned]; rfl
  · rw [hturned]; rfl

theorem toQuaternion_mul :
    (v * q).toQuaternion = q.toQuaternion * v.toQuaternion * star q.toQuaternion := toQuaternion_apply v q

theorem toQuaternion_div :
    (v / q).toQuaternion = star q.toQuaternion * v.toQuaternion * q.toQuaternion := by
  have hconjugate := toQuaternion_apply v q.conjugate
  rwa [Quat.toQuaternion_conjugate, star_star] at hconjugate

end Vec

section Laws

variable [CommRing R] (v : Vec R) (a b : Quat R)

theorem turn_mul : v * (a * b) = v * a * b := by
  apply Vec.toQuaternion_injective
  simp only [Vec.toQuaternion_mul, Quat.toQuaternion_mul, star_mul, mul_assoc]

theorem toQuaternion_turn_back : (v * b / b).toQuaternion = (b.normSq * b.normSq) • v.toQuaternion := by
  have hnorm : star b.toQuaternion * b.toQuaternion = (b.normSq : Quaternion R) := by
    rw [Quaternion.star_mul_self, Quat.normSq_toQuaternion]
  calc (v * b / b).toQuaternion
      = star b.toQuaternion * b.toQuaternion * v.toQuaternion * (star b.toQuaternion * b.toQuaternion) := by
        simp only [Vec.toQuaternion_div, Vec.toQuaternion_mul, mul_assoc]
    _ = (b.normSq * b.normSq) • v.toQuaternion := by
        rw [hnorm, Quaternion.coe_mul_eq_smul, Quaternion.mul_coe_eq_smul, smul_smul]

theorem toQuaternion_mul_div : (a * b / b).toQuaternion = b.normSq • a.toQuaternion := by
  rw [Quat.toQuaternion_div, Quat.toQuaternion_mul, ← mul_assoc, Quaternion.star_mul_self,
    Quat.normSq_toQuaternion, Quaternion.coe_mul_eq_smul]

variable {b}

theorem turn_back (h : b.normSq = 1) : v * b / b = v := by
  apply Vec.toQuaternion_injective
  rw [toQuaternion_turn_back, h, mul_one, one_smul]

theorem mul_div_self (h : b.normSq = 1) : a * b / b = a := by
  apply Quat.toQuaternion_injective
  rw [toQuaternion_mul_div, h, one_smul]

end Laws

/-- What the operators of scripts do with vectors and rotations is turning.  With rational numbers for the floats,
a product of rotations turns as one of them does after the other, and dividing by a rotation of norm one undoes
multiplying by it. -/
theorem rotations_compose :
    ((∀ (v : Vector3) (a : Rotation),
        Value.applyBinary .multiply (.vector v) (.rotation a) = some (.vector (v * a)) ∧
        Value.applyBinary .divide (.vector v) (.rotation a) = some (.vector (v / a))) ∧
      ∀ a b : Rotation,
        Value.applyBinary .multiply (.rotation a) (.rotation b) = some (.rotation (a * b)) ∧
        Value.applyBinary .divide (.rotation a) (.rotation b) = some (.rotation (a / b))) ∧
    (∀ (v : Vec ℚ) (a b : Quat ℚ), v * (a * b) = v * a * b) ∧
    (∀ (v : Vec ℚ) (b : Quat ℚ), b.normSq = 1 → v * b / b = v) ∧
    ∀ a b : Quat ℚ, b.normSq = 1 → a * b / b = a :=
  ⟨⟨fun v a => ⟨multiply_vector_rotation v a, divide_vector_rotation v a⟩,
    fun a b => ⟨multiply_rotations a b, divide_rotations a b⟩⟩,
    turn_mul, fun v _ => turn_back v, fun a _ => mul_div_self a⟩

def diagonal : Quat ℚ := ⟨1 / 2, 1 / 2, 1 / 2, 1 / 2⟩

theorem rotations_compose_diagonal : diagonal.normSq = 1 ∧ (⟨1, 2, 3⟩ : Vec ℚ) * diagonal = ⟨3, 1, 2⟩ ∧
    (⟨3, 1, 2⟩ : Vec ℚ) / diagonal = ⟨1, 2, 3⟩ ∧ (⟨1, 0, 2, -3⟩ : Quat ℚ) * diagonal / diagonal = ⟨1, 0, 2, -3⟩ := by
  have hnorm : diagonal.normSq = 1 := by decide +kernel
  have hturned : (⟨1, 2, 3⟩ : Vec ℚ) * diagonal = ⟨3, 1, 2⟩ := by decide +kernel
  obtain ⟨-, -, hback, hundone⟩ := rotations_compose
  exact ⟨hnorm, hturned, hturned ▸ hback ⟨1, 2, 3⟩ diagonal hnorm, hundone _ _ hnorm⟩

end PrimScript
