/-! The operators of expressions and assignments: how they are written in a script, and the names
they have in a stored syntax tree. -/

namespace PrimScript

inductive BinaryOp
  | add : BinaryOp
  | subtract : BinaryOp
  | multiply : BinaryOp
  | divide : BinaryOp
  | modulo : BinaryOp
  | equal : BinaryOp
  | notEqual : BinaryOp
  | lessThan : BinaryOp
  | greaterThan : BinaryOp
  | lessThanEqual : BinaryOp
  | greaterThanEqual : BinaryOp
  | and : BinaryOp
  | or : BinaryOp
  | bitAnd : BinaryOp
  | bitOr : BinaryOp
  | bitXor : BinaryOp
  | shiftLeft : BinaryOp
  | shiftRight : BinaryOp
  deriving DecidableEq, Repr

namespace BinaryOp

def all : List BinaryOp :=
  [.add, .subtract, .multiply, .divide, .modulo, .equal, .notEqual, .lessThan, .greaterThan,
   .lessThanEqual, .greaterThanEqual, .and, .or, .bitAnd, .bitOr, .bitXor, .shiftLeft,
   .shiftRight]

def symbol : BinaryOp → String
  | .add => "+"
  | .subtract => "-"
  | .multiply => "*"
  | .divide => "/"
  | .modulo => "%"
  | .equal => "=="
  | .notEqual => "!="
  | .lessThan => "<"
  | .greaterThan => ">"
  | .lessThanEqual => "<="
  | .greaterThanEqual => ">="
  | .and => "&&"
  | .or => "||"
  | .bitAnd => "&"
  | .bitOr => "|"
  | .bitXor => "^"
  | .shiftLeft => "<<"
  | .shiftRight => ">>"

def name : BinaryOp → String
  | .add => "add"
  | .subtract => "subtract"
  | .multiply => "multiply"
  | .divide => "divide"
  | .modulo => "modulo"
  | .equal => "equal"
  | .notEqual => "not_equal"
  | .lessThan => "less_than"
  | .greaterThan => "greater_than"
  | .lessThanEqual => "less_than_equal"
  | .greaterThanEqual => "greater_than_equal"
  | .and => "and"
  | .or => "or"
  | .bitAnd => "bit_and"
  | .bitOr => "bit_or"
  | .bitXor => "bit_xor"
  | .shiftLeft => "shift_left"
  | .shiftRight => "shift_right"

/-- How tightly an operator binds, from the loosest `0` to the tightest `9`. -/
def level : BinaryOp → Nat
  | .or => 0
  | .and => 1
  | .bitOr => 2
  | .bitXor => 3
  | .bitAnd => 4
  | .equal => 5
  | .notEqual => 5
  | .lessThan => 6
  | .lessThanEqual => 6
  | .greaterThan => 6
  | .greaterThanEqual => 6
  | .shiftLeft => 7
  | .shiftRight => 7
  | .add => 8
  | .subtract => 8
  | .multiply => 9
  | .divide => 9
  | .modulo => 9

theorem level_lt (op : BinaryOp) : op.level < 10 := by cases op <;> decide

def ofSymbol? (s : String) : Option BinaryOp := all.find? (·.symbol = s)

def ofName? (s : String) : Option BinaryOp := all.find? (·.name = s)

@[simp] theorem ofName?_name (op : BinaryOp) : ofName? op.name = some op := by cases op <;> rfl

@[simp] theorem ofSymbol?_symbol (op : BinaryOp) : ofSymbol? op.symbol = some op := by
  cases op <;> rfl

end BinaryOp

inductive UnaryOp
  | negate : UnaryOp
  | plus : UnaryOp
  | not : UnaryOp
  | bitNot : UnaryOp
  deriving DecidableEq, Repr

namespace UnaryOp

def all : List UnaryOp := [.negate, .plus, .not, .bitNot]

def symbol : UnaryOp → String
  | .negate => "-"
  | .plus => "+"
  | .not => "!"
  | .bitNot => "~"

def name : UnaryOp → String
  | .negate => "negate"
  | .plus => "plus"
  | .not => "not"
  | .bitNot => "bit_not"

def ofSymbol? (s : String) : Option UnaryOp := all.find? (·.symbol = s)

def ofName? (s : String) : Option UnaryOp := all.find? (·.name = s)

@[simp] theorem ofName?_name (op : UnaryOp) : ofName? op.name = some op := by cases op <;> rfl

end UnaryOp

inductive StepOp
  | increment : StepOp
  | decrement : StepOp
  deriving DecidableEq, Repr

namespace StepOp

def all : List StepOp := [.increment, .decrement]

def symbol : StepOp → String
  | .increment => "++"
  | .decrement => "--"

def name : StepOp → String
  | .increment => "increment"
  | .decrement => "decrement"

def ofName? (s : String) : Option StepOp := all.find? (·.name = s)

@[simp] theorem ofName?_name (op : StepOp) : ofName? op.name = some op := by cases op <;> rfl

end StepOp

inductive AssignOp
  | assign : AssignOp
  | add : AssignOp
  | subtract : AssignOp
  | multiply : AssignOp
  | divide : AssignOp
  | modulo : AssignOp
  deriving DecidableEq, Repr

namespace AssignOp

def all : List AssignOp := [.assign, .add, .subtract, .multiply, .divide, .modulo]

def name : AssignOp → String
  | .assign => "assign"
  | .add => "add"
  | .subtract => "subtract"
  | .multiply => "multiply"
  | .divide => "divide"
  | .modulo => "modulo"

def ofName? (s : String) : Option AssignOp := all.find? (·.name = s)

def binary? : AssignOp → Option BinaryOp
  | .assign => none
  | .add => some .add
  | .subtract => some .subtract
  | .multiply => some .multiply
  | .divide => some .divide
  | .modulo => some .modulo

@[simp] theorem ofName?_name (op : AssignOp) : ofName? op.name = some op := by cases op <;> rfl

end AssignOp

inductive Axis
  | x : Axis
  | y : Axis
  | z : Axis
  | s : Axis
  deriving DecidableEq, Repr

namespace Axis

def all : List Axis := [.x, .y, .z, .s]

def name : Axis → String
  | .x => "x"
  | .y => "y"
  | .z => "z"
  | .s => "s"

def ofName? (s : String) : Option Axis := all.find? (·.name = s)

@[simp] theorem ofName?_name (a : Axis) : ofName? a.name = some a := by cases a <;> rfl

end Axis

end PrimScript
