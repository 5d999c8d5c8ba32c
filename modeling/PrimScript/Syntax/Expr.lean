import PrimScript.Syntax.Operator
import PrimScript.Syntax.ValueType

/-! Expressions and the places they assign to. -/

namespace PrimScript

inductive Literal
  | integer (n : Int32) : Literal
  | float (x : Float) : Literal
  | string (s : String) : Literal
  deriving Inhabited

mutual

inductive Expr
  | literal (value : Literal) : Expr
  | ident (name : String) : Expr
  | binary (op : BinaryOp) (left right : Expr) : Expr
  | unary (op : UnaryOp) (operand : Expr) : Expr
  /-- The operators `++` and `--`, written before their target or after it. -/
  | step (op : StepOp) (before : Bool) (target : Target) : Expr
  | call (name : String) (args : List Expr) : Expr
  | vector (x y z : Expr) : Expr
  | rotation (x y z s : Expr) : Expr
  | list (items : List Expr) : Expr
  | component (of : Expr) (axis : Axis) : Expr
  | subscript (list index : Expr) : Expr
  | slice (list start stop : Expr) : Expr
  | cast (type : ValueType) (operand : Expr) : Expr
  | assign (target : Target) (op : AssignOp) (value : Expr) : Expr

inductive Target
  | variable (name : String) : Target
  | component (name : String) (axis : Axis) : Target
  | element (name : String) (index : Expr) : Target

end

instance : Inhabited Expr := ⟨.ident ""⟩

def Target.name : Target → String
  | .variable name => name
  | .component name _ => name
  | .element name _ => name

end PrimScript
