import PrimScript.CallStack
import PrimScript.Library.Function

/-! The machine that scripts run on, and the actions evaluation is made of.  Recoverable faults are
reported and evaluation goes on; an error ends it. -/

namespace PrimScript

inductive EvalError
  | undefinedLabel (label : String) : EvalError
  | depthExceeded (limit : Nat) : EvalError
  | unknownState (name : String) : EvalError
  /-- A path to a label that leads past the end of a block. -/
  | lostIndex (index : Nat) : EvalError
  /-- A path to a label that leads to no branch. -/
  | lostBranch : EvalError
  deriving DecidableEq, Repr

def EvalError.message : EvalError → String
  | .undefinedLabel label => s!"Undefined label `{label}`"
  | .depthExceeded limit => s!"Stack-heap collision: call depth exceeded {limit}"
  | .unknownState name => s!"Unknown state `{name}`"
  | .lostIndex index => s!"Internal error: jump path index {index} out of range"
  | .lostBranch => "Internal error: jump path names no if branch"

inductive Halt
  | error (e : EvalError) : Halt
  /-- A span of time was asked for that is longer than any the clock can hold. -/
  | overlong : Halt
  deriving DecidableEq, Repr

inductive Moment
  /-- The call stack became another one. -/
  | stack (s : CallStack) : Moment
  | request (state : String) : Moment
  /-- A statement was run that goes over to a state. -/
  | stated (state : String) : Moment
  /-- The limit on a loop or on jumps was used up. -/
  | capped : Moment

/-- A call of the library: the world as the function found it, and what the call came to. -/
structure Called where
  world : World
  call : Call
  reply : Reply

structure Machine where
  stack : CallStack
  /-- The state that a function has asked for, until its handler takes note of it. -/
  requested : Option String
  world : World
  past : History Moment
  called : History Called

namespace Machine

def note (m : Machine) (x : Moment) : Machine := { m with past := m.past.push x }

def setStack (m : Machine) (s : CallStack) : Machine := { m with stack := s }.note (.stack s)

def request (m : Machine) (state : String) : Machine :=
  { m with requested := some state }.note (.request state)

def afterCall (m : Machine) (r : Called) (w : World) : Machine :=
  { m with world := w, called := m.called.push r }

end Machine

abbrev Eval := ExceptT Halt (StateM Machine)

namespace Eval

def fail {α : Type} (e : EvalError) : Eval α := throw (.error e)

def warn (kind : DiagnosticKind) (message : String) : Eval Unit :=
  modify fun m => { m with world := m.world.report kind message }

/-- What an expression comes to that has no value: the zero of the type its surroundings expect. -/
def fallback : Option ValueType → Value
  | some t => .zero t
  | none => .integer 0

def resolve (name : String) (hint : Option ValueType) : Eval Value := do
  match (← get).stack.resolve name with
  | .ok v => pure v
  | .error e =>
    warn .unknownIdentifier e.message
    pure (fallback hint)

def typeOf? (name : String) : Eval (Option ValueType) := do return (← get).stack.type? name

def declare (name : String) (type : ValueType) (v : Value) : Eval Unit :=
  modify fun m => m.setStack (m.stack.declare name type v)

/-- Stores a value and gives what was stored.  A name that is not bound is reported, and then bound
with the type of the value; an assignment to a constant is only reported. -/
def assign (name : String) (v : Value) : Eval Value := do
  match (← get).stack.assign name v with
  | .ok (stored, stack) =>
    modify (·.setStack stack)
    pure stored
  | .error (.notFound name) =>
    warn .unknownIdentifier (NameError.notFound name).message
    declare name v.type v
    pure v
  | .error (.constant name) =>
    warn .typeMismatch (NameError.constant name).message
    pure v

def returnType? : Eval (Option ValueType) := do
  return (← get).stack.top?.bind (·.returns)

def request (state : String) : Eval Unit := modify (·.request state)

/-- Takes note of a state that a function has asked for, once control is back in the handler. -/
def takeRequest : Eval (Option String) := do
  let m ← get
  if m.stack.depth ≤ 1 then
    match m.requested with
    | some state =>
      set { m with requested := none }
      pure (some state)
    | none => pure none
  else pure none

/-- Runs an action in a frame of its own.  The frame goes, however the action ends. -/
def withFrame {α : Type} (f : Frame) (act : Eval α) : Eval α :=
  ExceptT.mk fun m =>
    let (result, m) := act.run (m.setStack (m.stack.push f))
    (result, m.setStack m.stack.pop)

section On

variable {α β : Type}

def on (act : Eval α) (m : Machine) : Except Halt α × Machine := act.run m

@[simp] theorem on_pure (a : α) (m : Machine) : (pure a : Eval α).on m = (.ok a, m) := rfl

@[simp] theorem on_throw (h : Halt) (m : Machine) : (throw h : Eval α).on m = (.error h, m) := rfl

@[simp] theorem on_fail (e : EvalError) (m : Machine) :
    (fail e : Eval α).on m = (.error (.error e), m) := rfl

@[simp] theorem on_get (m : Machine) : (get : Eval Machine).on m = (.ok m, m) := rfl

@[simp] theorem on_set (m n : Machine) : (set n : Eval PUnit).on m = (.ok .unit, n) := rfl

@[simp] theorem on_modify (f : Machine → Machine) (m : Machine) :
    (modify f : Eval PUnit).on m = (.ok .unit, f m) := rfl

theorem on_bind (act : Eval α) (next : α → Eval β) (m : Machine) :
    (act >>= next).on m =
      match act.on m with
      | (.ok a, n) => (next a).on n
      | (.error h, n) => (.error h, n) := by
  change (ExceptT.bind act next).run m = _
  simp only [ExceptT.bind, ExceptT.mk, ExceptT.run, bind, StateT.bind, on]
  cases act m with
  | mk r n => cases r <;> rfl

theorem on_discard (act : Eval α) (m : Machine) :
    (discard act).on m = (act >>= fun _ => pure ()).on m := by
  rw [on_bind]
  change (ExceptT.map (fun _ => ()) act).run m = _
  simp only [ExceptT.map, ExceptT.mk, ExceptT.run, bind, StateT.bind, on]
  cases act m with
  | mk r n => cases r <;> rfl

@[simp] theorem on_withFrame (f : Frame) (act : Eval α) (m : Machine) :
    (withFrame f act).on m =
      ((act.on (m.setStack (m.stack.push f))).1,
        (act.on (m.setStack (m.stack.push f))).2.setStack
          (act.on (m.setStack (m.stack.push f))).2.stack.pop) := rfl

theorem ext_on {act act' : Eval α} (h : ∀ m, act.on m = act'.on m) : act = act' := funext h

theorem discard_eq_bind (act : Eval α) : discard act = act >>= fun _ => pure () :=
  ext_on (on_discard act)

end On

end Eval

end PrimScript
