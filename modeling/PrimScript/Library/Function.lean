import PrimScript.Value.Coerce
import PrimScript.World.Alarm

/-! Functions of the library: what a script can call besides its own functions. -/

namespace PrimScript

inductive Effect
  | pure : Effect
  | sideEffect : Effect
  | sleeping : Effect
  /-- An event follows. -/
  | answers (event : EventKind) : Effect

def Effect.name : Effect → String
  | .pure => "pure"
  | .sideEffect => "side_effect"
  | .sleeping => "sleeping"
  | .answers event => s!"async {event.name}"

/-- A call of a library function: its name, the arguments, and the entities that the running event
has detected. -/
structure Call where
  name : String
  args : List Value
  detected : List Entity

inductive Reply
  | value (v : Value) : Reply
  /-- The caller waits for a span of time. -/
  | pause (span : Nat) : Reply
  | invalid (reason : String) : Reply
  | failed (reason : String) : Reply
  /-- A span of time was asked for that is longer than any the clock can hold. -/
  | overlong : Reply

namespace Reply

def void : Reply := .value (.integer 0)

def integer (n : Int32) : Reply := .value (.integer n)

def float (x : Float) : Reply := .value (.float x)

def string (s : String) : Reply := .value (.string s)

def key (k : String) : Reply := .value (.ofKey k)

def bool (b : Bool) : Reply := .value (.ofBool b)

def chars (cs : List Char) : Reply := .string (String.ofList cs)

def list (vs : List Value) : Reply := .value (.list vs)

def invalidMessage (name reason : String) : String := s!"Invalid argument for {name}: {reason}"

def failedMessage (name reason : String) : String := s!"{name} failed: {reason}"

end Reply

namespace Call

def arg (c : Call) (i : Nat) : Value := (c.args[i]?).getD (.integer 0)

def integer (c : Call) (i : Nat) : Int32 := (c.arg i).asInteger

def float (c : Call) (i : Nat) : Float := (c.arg i).asFloat

def chars (c : Call) (i : Nat) : List Char := (c.arg i).chars

def string (c : Call) (i : Nat) : String := String.ofList (c.chars i)

def vector (c : Call) (i : Nat) : Vector3 := (c.arg i).asVector

def rotation (c : Call) (i : Nat) : Rotation := (c.arg i).asRotation

def list (c : Call) (i : Nat) : List Value := (c.arg i).asList

/-- The detected entity with the number that the first argument gives. -/
def entity? (c : Call) : Option Entity :=
  let i := (c.integer 0).toInt
  if i < 0 then none else c.detected[i.toNat]?

end Call

structure LibraryFunction where
  name : String
  params : List ValueType
  returns : Option ValueType
  effect : Effect
  run : Call → World → Reply × World

namespace LibraryFunction

def ofPure (name : String) (params : List ValueType) (returns : ValueType)
    (f : Call → Reply) : LibraryFunction :=
  ⟨name, params, some returns, .pure, fun c w => (f c, w)⟩

def reading (name : String) (params : List ValueType) (returns : ValueType)
    (f : Call → World → Reply) : LibraryFunction :=
  ⟨name, params, some returns, .sideEffect, fun c w => (f c w, w)⟩

/-- The arguments a function takes of the values given: each is coerced to the type of its
parameter, and those without a parameter are dropped. -/
def accept (f : LibraryFunction) (vs : List Value) : List Value :=
  (f.params.zip vs).map fun (t, v) => v.coerce t

def acting (name : String) (params : List ValueType) (f : Call → World → World) :
    LibraryFunction :=
  ⟨name, params, none, .sideEffect, fun c w => (.void, f c w)⟩

end LibraryFunction

end PrimScript
