import PrimScript.Constant
import PrimScript.NameMap
import PrimScript.Value.Coerce

/-! Call stacks: the global variables, and a frame of variables for each handler or function that is
running.  A body sees the variables of its own frame and the global ones.  A variable keeps its
type, and what is stored in it is coerced to that. -/

namespace PrimScript

structure Slot where
  type : ValueType
  value : Value
  deriving Inhabited

def Slot.of (type : ValueType) (v : Value) : Slot := ⟨type, v.coerce type⟩

@[simp] theorem Slot.type_of (t : ValueType) (v : Value) : (Slot.of t v).type = t := rfl

@[simp] theorem Slot.type_value_of (t : ValueType) (v : Value) : (Slot.of t v).value.type = t :=
  Value.type_coerce t v

/-- The variables of a running body.  Blocks have none of their own: a variable lives until the body
ends. -/
structure Frame where
  /-- The name of the handler's event or of the function. -/
  owner : String
  /-- The type of the result, when there is one. -/
  returns : Option ValueType
  slots : NameMap Slot
  deriving Inhabited

namespace Frame

def empty (owner : String) (returns : Option ValueType) : Frame := ⟨owner, returns, []⟩

def declare (f : Frame) (name : String) (type : ValueType) (v : Value) : Frame :=
  { f with slots := f.slots.insert name (.of type v) }

def assign? (f : Frame) (name : String) (v : Value) : Option (Value × Frame) :=
  (f.slots.find? name).map fun old =>
    let slot := Slot.of old.type v
    (slot.value, { f with slots := f.slots.insert name slot })

def values (f : Frame) : NameMap Value := f.slots.map fun (name, slot) => (name, slot.value)

end Frame

inductive NameError
  | notFound (name : String) : NameError
  | constant (name : String) : NameError
  deriving DecidableEq, Repr

def NameError.message : NameError → String
  | .notFound name => s!"Variable not found: {name}"
  | .constant name => s!"Cannot assign to constant `{name}`"

structure CallStack where
  globals : Frame
  /-- The frames of the running bodies, the innermost first. -/
  frames : List Frame
  deriving Inhabited

namespace CallStack

def empty : CallStack := ⟨.empty "" none, []⟩

def depth (s : CallStack) : Nat := s.frames.length

def top? (s : CallStack) : Option Frame := s.frames.head?

def push (s : CallStack) (f : Frame) : CallStack := { s with frames := f :: s.frames }

def pop (s : CallStack) : CallStack := { s with frames := s.frames.tail }

def slot? (s : CallStack) (name : String) : Option Slot :=
  (s.top?.bind (·.slots.find? name)).or (s.globals.slots.find? name)

def type? (s : CallStack) (name : String) : Option ValueType := (s.slot? name).map (·.type)

def resolve (s : CallStack) (name : String) : Except NameError Value :=
  match s.slot? name with
  | some slot => .ok slot.value
  | none =>
    match Constant.find? name with
    | some v => .ok v
    | none => .error (.notFound name)

def assignGlobal (s : CallStack) (name : String) (v : Value) :
    Except NameError (Value × CallStack) :=
  match s.globals.assign? name v with
  | some (stored, globals) => .ok (stored, { s with globals := globals })
  | none =>
    match Constant.find? name with
    | some _ => .error (.constant name)
    | none => .error (.notFound name)

def assign (s : CallStack) (name : String) (v : Value) : Except NameError (Value × CallStack) :=
  match s.frames with
  | f :: rest =>
    match f.assign? name v with
    | some (stored, f) => .ok (stored, { s with frames := f :: rest })
    | none => s.assignGlobal name v
  | [] => s.assignGlobal name v

def declare (s : CallStack) (name : String) (type : ValueType) (v : Value) : CallStack :=
  match s.frames with
  | f :: rest => { s with frames := f.declare name type v :: rest }
  | [] => { s with globals := s.globals.declare name type v }

@[simp] theorem pop_push (s : CallStack) (f : Frame) : (s.push f).pop = s := rfl

@[simp] theorem top?_push (s : CallStack) (f : Frame) : (s.push f).top? = some f := rfl

@[simp] theorem depth_push (s : CallStack) (f : Frame) : (s.push f).depth = s.depth + 1 := rfl

@[simp] theorem depth_pop (s : CallStack) : s.pop.depth = s.depth - 1 := by simp [pop, depth]

@[simp] theorem depth_declare (s : CallStack) (name : String) (t : ValueType) (v : Value) :
    (s.declare name t v).depth = s.depth := by
  unfold declare depth
  split <;> simp_all

theorem slot?_declare_self (s : CallStack) (name : String) (t : ValueType) (v : Value) :
    (s.declare name t v).slot? name = some (.of t v) := by
  unfold declare slot? top?
  cases s.frames <;> simp [Frame.declare]

end CallStack

end PrimScript
