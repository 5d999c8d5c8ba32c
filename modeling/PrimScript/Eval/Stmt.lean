import PrimScript.Eval.Expr
import PrimScript.Eval.Flow

/-! The evaluation of statements and bodies.  A jump goes to its label wherever in the body that
is, and the constructs around the label then end as if it had been reached from their start. -/

namespace PrimScript

def labelIndex? (body : List Stmt) (name : String) : Option Nat :=
  body.findIdx? fun
    | .label n => n = name
    | _ => false

theorem labelIndex?_lt {body : List Stmt} {name : String} {i : Nat}
    (h : labelIndex? body name = some i) : i < body.length :=
  (List.findIdx?_eq_some_iff_findIdx_eq.1 h).1

mutual

def Stmt.path? (name : String) : Stmt → Option (List Nat)
  | .label n => if n = name then some [] else none
  | .block body => pathIn? name 0 body
  | .ite _ yes none => (yes.path? name).map (0 :: ·)
  | .ite _ yes (some no) => ((yes.path? name).map (0 :: ·)).or ((no.path? name).map (1 :: ·))
  | .while _ body => (body.path? name).map (0 :: ·)
  | .doWhile body _ => (body.path? name).map (0 :: ·)
  | .for _ _ _ body => (body.path? name).map (0 :: ·)
  | _ => none

def pathIn? (name : String) (i : Nat) : List Stmt → Option (List Nat)
  | [] => none
  | s :: rest => ((s.path? name).map (i :: ·)).or (pathIn? name (i + 1) rest)

end

def Eval.returned (s : Scope) : Option Expr → Eval Flow
  | none => pure (.return none)
  | some e => do
    let type ← Eval.returnType?
    let v ← e.eval s type
    pure (.return (some (match type with
      | some t => v.coerce t
      | none => v)))

def Scope.effects (s : Scope) (es : List Expr) : Eval Unit := discard (Expr.evalAll s es)

def Scope.test (s : Scope) (condition : Expr) : Eval Bool := do
  return (← condition.eval s none).truthy

def Scope.loop (s : Scope) (condition : Option Expr) (body : Entry → Eval Flow)
    (step : List Expr) : Loop where
  cap := s.loopCap
  test := match condition with
    | some c => s.test c
    | none => pure true
  body := body
  step := s.effects step

def Scope.block (s : Scope) (body : List Stmt) (runs : List (Entry → Eval Flow)) : Block :=
  ⟨s.loopCap, labelIndex? body, runs.toArray⟩

mutual

def Stmt.run (s : Scope) : Stmt → Entry → Eval Flow
  | .declare name type init, none => do
    let v ← match init with
      | some e => e.evalAs s type
      | none => pure (.zero type)
    Eval.declare name type v
    pure .normal
  | .assign target op value, none => do
    discard ((Expr.assign target op value).eval s none)
    pure .normal
  | .expr e, none => do
    discard (e.eval s none)
    pure .normal
  | .ite _ yes _, some (0 :: path) => yes.run s (some path)
  | .ite _ _ (some no), some (1 :: path) => no.run s (some path)
  | .ite _ _ _, some _ => Eval.fail .lostBranch
  | .ite condition yes none, none => do
    if ← s.test condition then yes.run s none else pure .normal
  | .ite condition yes (some no), none => do
    if ← s.test condition then yes.run s none else no.run s none
  | .while condition body, entry =>
    let l := s.loop (some condition) (body.run s) []
    match entry with
    | none => l.tested
    | some path => l.resume path.tail
  | .doWhile body condition, entry =>
    let l := s.loop (some condition) (body.run s) []
    match entry with
    | none => l.passes l.cap
    | some path => l.resume path.tail
  | .for init condition step body, entry =>
    let l := s.loop condition (body.run s) step
    match entry with
    | none => do
      s.effects init
      l.tested
    | some path => l.resume path.tail
  | .return value, none => Eval.returned s value
  | .state target, none => Flow.stated target
  | .jump name, none => pure (.jump name)
  | .block body, entry => (s.block body (Stmt.runs s body)).run entry
  | .break, none => pure .break
  | .continue, none => pure .continue
  | _, _ => pure .normal

def Stmt.runs (s : Scope) : List Stmt → List (Entry → Eval Flow)
  | [] => []
  | t :: ts => t.run s :: Stmt.runs s ts

end

/-- Goes on in a body after a jump that was not made inside of its blocks.  At most `left` more of
them are made. -/
def Scope.afterJumps (s : Scope) (body : List Stmt) (b : Block) : (left : Nat) → Flow → Eval Flow
  | left, .jump label =>
    match pathIn? label 0 body with
    | none => Eval.fail (.undefinedLabel label)
    | some path =>
      match left with
      | 0 => Flow.capped s!"jump to `{label}`" s.loopCap
      | left + 1 => do s.afterJumps body b left (← b.run (some path))
  | _, flow => pure flow

def Scope.runBody (s : Scope) (body : List Stmt) : Eval Flow := do
  let b := s.block body (Stmt.runs s body)
  s.afterJumps body b s.loopCap (← b.run none)

end PrimScript
