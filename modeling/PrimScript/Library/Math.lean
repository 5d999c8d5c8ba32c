import PrimScript.Geometry.Euler
import PrimScript.Library.Function

/-! Functions for numbers, vectors and rotations. -/

namespace PrimScript.Library

open LibraryFunction

def ofFloat (name : String) (f : Float → Float) : LibraryFunction :=
  ofPure name [.float] .float fun c => .float (f (c.float 0))

def ofFloats (name : String) (f : Float → Float → Float) : LibraryFunction :=
  ofPure name [.float, .float] .float fun c => .float (f (c.float 0) (c.float 1))

def rounding (name : String) (f : Float → Float) : LibraryFunction :=
  ofPure name [.float] .integer fun c => .integer (f (c.float 0)).toInt32

def turning (name : String) (unit : Vector3) : LibraryFunction :=
  ofPure name [.rotation] .vector fun c => .value (.vector ((c.rotation 0).direction unit))

def math : List LibraryFunction :=
  [ofPure "llAbs" [.integer] .integer fun c =>
     .integer (if c.integer 0 < 0 then -(c.integer 0) else c.integer 0),
   ofFloat "llFabs" Float.abs,
   rounding "llFloor" Float.floor,
   rounding "llCeil" Float.ceil,
   rounding "llRound" fun x => (x + 0.5).floor,
   ofFloat "llSqrt" Float.sqrt,
   ofFloats "llPow" Float.pow,
   ofFloat "llSin" Float.sin,
   ofFloat "llCos" Float.cos,
   ofFloat "llTan" Float.tan,
   ofFloat "llAsin" Float.asin,
   ofFloat "llAcos" Float.acos,
   ofFloats "llAtan2" Float.atan2,
   ofFloat "llLog" fun x => if 0 < x then x.log else 0,
   ofFloat "llLog10" fun x => if 0 < x then x.log10 else 0,
   ofPure "llVecMag" [.vector] .float fun c => .float (c.vector 0).magnitude,
   ofPure "llVecNorm" [.vector] .vector fun c => .value (.vector (c.vector 0).normalize),
   ofPure "llVecDist" [.vector, .vector] .float fun c =>
     .float (Vector3.magnitude ((c.vector 0).sub (c.vector 1))),
   ofPure "llEuler2Rot" [.vector] .rotation fun c =>
     .value (.rotation (Rotation.ofEuler (c.vector 0))),
   ofPure "llRot2Euler" [.rotation] .vector fun c => .value (.vector (c.rotation 0).toEuler),
   ofPure "llAxisAngle2Rot" [.vector, .float] .rotation fun c =>
     .value (.rotation (Rotation.ofAxisAngle (c.vector 0) (c.float 1))),
   turning "llRot2Fwd" ⟨1, 0, 0⟩,
   turning "llRot2Left" ⟨0, 1, 0⟩,
   turning "llRot2Up" ⟨0, 0, 1⟩,
   ofPure "llAngleBetween" [.rotation, .rotation] .float fun c =>
     .float ((c.rotation 0).angleBetween (c.rotation 1))]

end PrimScript.Library
