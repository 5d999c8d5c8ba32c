import PrimScript.Eval.Stmt

/-! Running a script: its functions, its handlers, and the initial values of its global variables. -/

namespace PrimScript

/-- A frame with the parameters bound to the values, and to zeros where values are missing. -/
def Frame.bind (f : Frame) : List Param → List Value → Frame
  | [], _ => f
  | p :: ps, [] => (f.declare p.name p.type (.zero p.type)).bind ps []
  | p :: ps, v :: vs => (f.declare p.name p.type v).bind ps vs

/-- Runs a function in a frame of its own.  A state it asks for is left to the handler. -/
def Function.run (f : Function) (s : Scope) (name : String) (args : List Value) : Eval Value :=
  Eval.withFrame ((Frame.empty name f.returns).bind f.params args) do
    let returned ← match ← s.runBody f.body with
      | .return v => pure v
      | .state target => do
        Eval.request target
        pure none
      | _ => pure none
    match f.returns, returned with
    | some t, some v => pure (v.coerce t)
    | some t, none => pure (.zero t)
    | none, _ => pure (.integer 0)

namespace Scope

/-- The scope of a body that may call functions `depth` deep. -/
def ofScript (script : Script) (settings : Settings) (detected : List Entity) :
    (depth : Nat) → Scope
  | 0 =>
    ⟨script.functions, settings.loopCap, detected, fun _ _ _ =>
      Eval.fail (.depthExceeded settings.maxCallDepth)⟩
  | depth + 1 =>
    ⟨script.functions, settings.loopCap, detected, fun name f args =>
      f.run (ofScript script settings detected depth) name args⟩

end Scope

/-- Runs an action in a scope of the script.  The frames that are there count for the limit on
calls. -/
def Script.inScope {α : Type} (script : Script) (detected : List Entity)
    (act : Scope → Eval α) : Eval α := do
  let m ← get
  let settings := m.world.settings
  act (.ofScript script settings detected (settings.maxCallDepth - m.stack.depth))

def Scope.bindGlobals (s : Scope) : List Global → Eval Unit
  | [] => pure ()
  | g :: rest => do
    let v ← match g.init with
      | some e => e.evalAs s g.type
      | none => pure (.zero g.type)
    Eval.declare g.name g.type v
    s.bindGlobals rest

def Handler.run (h : Handler) (script : Script) (e : Event) : Eval (Option String) :=
  Eval.withFrame ((Frame.empty e.kind.name none).bind h.params e.args) <|
    script.inScope e.detected fun s => do
      match ← s.runBody h.body with
      | .state target => pure (some target)
      | _ => Eval.takeRequest

namespace Machine

def ofWorld (w : World) : Machine := ⟨.empty, none, w, .empty, .empty⟩

/-- Runs an action for which no state has been asked for yet. -/
def perform {α : Type} (m : Machine) (act : Eval α) : Except Halt α × Machine :=
  act.run { m with requested := none }

def bindGlobals (m : Machine) (script : Script) : Except Halt Unit × Machine :=
  m.perform (script.inScope [] (·.bindGlobals script.globals))

def handle (m : Machine) (script : Script) (h : Handler) (e : Event) :
    Except Halt (Option String) × Machine :=
  m.perform (h.run script e)

end Machine

end PrimScript
