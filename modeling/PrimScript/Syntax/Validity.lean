import PrimScript.Event.Kind
import PrimScript.Syntax.Script

/-! Validity of scripts: there is a default state, handlers are for events of the catalog and take
their parameters, and every state that a statement changes to exists. -/

namespace PrimScript

inductive ValidityError
  | noDefault : ValidityError
  | unknownEvent (state event : String) : ValidityError
  | arity (state event : String) (found expected : Nat) : ValidityError
  | paramType (state event param : String) (found expected : ValueType) : ValidityError
  | undefinedState (name : String) : ValidityError
  deriving DecidableEq, Repr

def ValidityError.message : ValidityError → String
  | .noDefault => "script has no `default` state"
  | .unknownEvent state event => s!"state `{state}` declares unknown event `{event}`"
  | .arity state event found expected =>
    s!"handler `{event}` in state `{state}` takes {found} parameter(s), expected {expected}"
  | .paramType state event param found expected =>
    s!"parameter `{param}` of `{event}` in state `{state}` must be {expected.name}, " ++
      s!"found {found.name}"
  | .undefinedState name => s!"`state {name};` targets an undefined state"

mutual

def Stmt.targets : Stmt → List String
  | .state name => [name]
  | .ite _ thenBranch none => thenBranch.targets
  | .ite _ thenBranch (some elseBranch) => thenBranch.targets ++ elseBranch.targets
  | .while _ body => body.targets
  | .doWhile body _ => body.targets
  | .for _ _ _ body => body.targets
  | .block body => targetsOfBody body
  | _ => []

def targetsOfBody : List Stmt → List String
  | [] => []
  | s :: ss => s.targets ++ targetsOfBody ss

end

namespace Script

def checkTargets (s : Script) (body : List Stmt) : Except ValidityError Unit :=
  match (targetsOfBody body).find? (!s.states.contains ·) with
  | some name => .error (.undefinedState name)
  | none => .ok ()

def checkParams (state event : String) : List Param → List ValueType → Except ValidityError Unit
  | p :: ps, t :: ts =>
    if p.type = t then checkParams state event ps ts
    else .error (.paramType state event p.name p.type t)
  | _, _ => .ok ()

def checkHandler (s : Script) (state event : String) (h : Handler) : Except ValidityError Unit :=
  match EventKind.ofName? event with
  | none => .error (.unknownEvent state event)
  | some kind =>
    if h.params.length ≠ kind.params.length then
      .error (.arity state event h.params.length kind.params.length)
    else do
      checkParams state event h.params kind.params
      s.checkTargets h.body

/-- Handlers go before functions; each in the order of their names. -/
def validate (s : Script) : Except ValidityError Unit :=
  if s.states.contains defaultState then do
    s.states.forM fun (state, handlers) =>
      handlers.forM fun (event, h) => s.checkHandler state event h
    s.functions.forM fun (_, f) => s.checkTargets f.body
  else .error .noDefault

end Script

end PrimScript
