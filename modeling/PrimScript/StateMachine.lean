import PrimScript.Eval.Basic
import PrimScript.Syntax.Script

/-! The state a script is in, and the handlers it has there. -/

namespace PrimScript

structure StateMachine where
  script : Script
  current : String

namespace StateMachine

def ofScript (s : Script) : StateMachine := ⟨s, defaultState⟩

def handler? (m : StateMachine) (event : String) : Option Handler :=
  m.script.handler? m.current event

def check (m : StateMachine) (target : String) : Except EvalError Bool :=
  if m.script.states.contains target then .ok (m.current ≠ target)
  else .error (.unknownState target)

def enter (m : StateMachine) (target : String) : StateMachine := { m with current := target }

theorem check_eq_ok_true_iff (m : StateMachine) (target : String) :
    m.check target = .ok true ↔ m.script.states.contains target ∧ m.current ≠ target := by
  by_cases h : m.script.states.contains target <;> simp [check, h]

end StateMachine

end PrimScript
