import PrimScript.NameMap
import PrimScript.Syntax.Expr

/-! Statements, and scripts made of them: global variables, functions, and states with their event handlers.
A body is a list of statements. -/

namespace PrimScript

inductive Stmt
  | declare (name : String) (type : ValueType) (init : Option Expr) : Stmt
  | assign (target : Target) (op : AssignOp) (value : Expr) : Stmt
  | expr (e : Expr) : Stmt
  | ite (condition : Expr) (thenBranch : Stmt) (elseBranch : Option Stmt) : Stmt
  | while (condition : Expr) (body : Stmt) : Stmt
  | doWhile (body : Stmt) (condition : Expr) : Stmt
  | for (init : List Expr) (condition : Option Expr) (step : List Expr) (body : Stmt) : Stmt
  | return (value : Option Expr) : Stmt
  | state (target : String) : Stmt
  | jump (label : String) : Stmt
  | label (name : String) : Stmt
  | block (body : List Stmt) : Stmt
  | break : Stmt
  | continue : Stmt
  /-- A lone semicolon. -/
  | empty : Stmt
  deriving Inhabited

structure Param where
  type : ValueType
  name : String
  deriving DecidableEq, Repr, Inhabited

structure Global where
  name : String
  type : ValueType
  init : Option Expr
  deriving Inhabited

structure Function where
  /-- The type of the result; none for a function declared without one. -/
  returns : Option ValueType
  params : List Param
  body : List Stmt
  deriving Inhabited

structure Handler where
  params : List Param
  body : List Stmt
  deriving Inhabited

structure Script where
  globals : List Global
  functions : NameMap Function
  states : NameMap (NameMap Handler)
  deriving Inhabited

def defaultState : String := "default"

namespace Script

def empty : Script := ⟨[], [], []⟩

def handler? (s : Script) (state event : String) : Option Handler :=
  (s.states.find? state).bind (·.find? event)

end Script

end PrimScript
