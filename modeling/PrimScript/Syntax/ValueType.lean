/-! The seven value types of the language. -/

namespace PrimScript

inductive ValueType
  | integer : ValueType
  | float : ValueType
  | string : ValueType
  | key : ValueType
  | vector : ValueType
  | rotation : ValueType
  | list : ValueType
  deriving DecidableEq, Repr, Inhabited

namespace ValueType

def name : ValueType → String
  | .integer => "integer"
  | .float => "float"
  | .string => "string"
  | .key => "key"
  | .vector => "vector"
  | .rotation => "rotation"
  | .list => "list"

def ofName? : String → Option ValueType
  | "integer" => some .integer
  | "float" => some .float
  | "string" => some .string
  | "key" => some .key
  | "vector" => some .vector
  | "rotation" => some .rotation
  | "quaternion" => some .rotation
  | "list" => some .list
  | _ => none

@[simp] theorem ofName?_name (t : ValueType) : ofName? t.name = some t := by cases t <;> rfl

/-- Is a value of the first type taken for one of the second without a warning? -/
def fits : ValueType → ValueType → Bool
  | .integer, .float => true
  | .string, .key => true
  | .key, .string => true
  | t, u => t = u

end ValueType

end PrimScript
