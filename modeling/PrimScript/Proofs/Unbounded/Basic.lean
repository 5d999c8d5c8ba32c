import PrimScript.Eval.Run

/-! Evaluation without a bound that is known beforehand.  Bodies, loops and blocks go on as long as their
counters allow, and the counters are words of 64 bits that start again at zero when they overflow.
Calls look at the call stack to see whether they may be made.

The evaluator is one that calls itself.  It is given by what it does when it is unfolded a number of times:
where it would have to be unfolded once more, nothing comes of it.  An evaluation comes to its end when
some number of times is enough, and nothing here says that there is one. -/

namespace PrimScript.Unbounded

/-- An action that may come to nothing. -/
abbrev Act := ExceptT Halt (StateT Machine Option)

def Act.of {α : Type} (act : Eval α) : Act α := fun m => some (act.on m)

def Act.nothing {α : Type} : Act α := fun _ => none

def Act.inFrame {α : Type} (f : Frame) (act : Act α) : Act α := fun m => do
  let (result, m) ← act.run.run (m.setStack (m.stack.push f))
  some (result, m.setStack m.stack.pop)

structure Context where
  functions : NameMap Function
  loopCap : UInt64
  maxCallDepth : Nat
  detected : List Entity

structure Runs where
  eval : Option ValueType → Expr → Act Value
  call : String → Function → List Value → Act Value
  run : Stmt → Act Flow
  /-- A loop behind its test, after that many passes. -/
  passes : Option Expr → List Expr → Stmt → UInt64 → Act Flow
  /-- A block from a place on, after that many jumps back. -/
  block : List Stmt → Nat → UInt64 → Act Flow
  /-- A statement from a label in it on. -/
  resume : Stmt → List Nat → Act Flow
  /-- A body after that many jumps that were not made inside of its blocks. -/
  jumps : List Stmt → UInt64 → Flow → Act Flow

namespace Runs

def nothing : Runs :=
  ⟨fun _ _ => .nothing, fun _ _ _ => .nothing, fun _ => .nothing, fun _ _ _ _ => .nothing,
    fun _ _ _ => .nothing, fun _ _ => .nothing, fun _ _ _ => .nothing⟩

variable (c : Context) (r : Runs)

def read : Target → Act Value
  | .variable name => .of (Eval.resolve name none)
  | .component name axis => do
    let v ← Act.of (Eval.resolve name none)
    .of (Eval.component s!"`{name}`" v axis)
  | .element name index => do
    let v ← Act.of (Eval.resolve name none)
    let i ← r.eval none index
    .of (Eval.element s!"`{name}`" v.asList i.asInteger none)

def write : Target → Value → Act Value
  | .variable name, v => .of (Eval.assign name v)
  | .component name axis, v => do
    Act.of (Eval.setComponent name axis v.asFloat)
    pure (.float v.asFloat)
  | .element name index, v => do
    let old ← Act.of (Eval.resolve name none)
    let i ← r.eval none index
    Act.of (Eval.setElement name old.asList i.asInteger v)
    pure v

def evalAll : List Expr → Act (List Value)
  | [] => pure []
  | e :: es => do
    let v ← r.eval none e
    let vs ← evalAll es
    pure (v :: vs)

def effects (es : List Expr) : Act Unit := do
  let _ ← r.evalAll es
  pure ()

def evalArgs (callee : String) (number : Nat) : List ValueType → List Expr → Act (List Value)
  | _, [] => pure []
  | [], e :: es => do
    let _ ← r.eval none e
    evalArgs callee (number + 1) [] es
  | t :: ts, e :: es => do
    let v ← r.eval (some t) e
    let v ← Act.of (Eval.argument callee number t v)
    let vs ← evalArgs callee (number + 1) ts es
    pure (v :: vs)

def evalAs (type : ValueType) (e : Expr) : Act Value := do
  let v ← r.eval (some type) e
  pure (v.coerce type)

def evalOnce (hint : Option ValueType) : Expr → Act Value
  | .literal l => pure l.value
  | .ident name => .of (Eval.resolve name hint)
  | .binary op left right => do
    let a ← r.eval none left
    match op.decided? a with
    | some v => pure v
    | none => do
      let b ← r.eval none right
      .of (Eval.binary op a b)
  | .unary op operand => do
    let a ← r.eval none operand
    .of (Eval.unary op a)
  | .step op before target => do
    let old ← r.read target
    match op.apply? old with
    | some new => do
      let stored ← r.write target new
      pure (if before then stored else old)
    | none => do
      Act.of (Eval.warn .typeMismatch s!"{op.symbol} cannot be applied to {old.type.name}")
      pure old
  | .call name args =>
    match c.functions.find? name with
    | some f => do
      let params := f.params.map (·.type)
      let values ← r.evalArgs name 1 params args
      let values ← Act.of (Eval.complete name params args.length values)
      r.call name f values
    | none =>
      match Library.find? name with
      | some f => do
        let values ← r.evalArgs name 1 f.params args
        let values ← Act.of (Eval.complete name f.params args.length values)
        .of (Eval.callLibrary f values c.detected)
      | none => do
        r.effects args
        Act.of (Eval.warn .unknownFunction s!"unknown function `{name}`")
        pure (Eval.fallback hint)
  | .vector x y z => do
    let x ← r.eval (some .float) x
    let y ← r.eval (some .float) y
    let z ← r.eval (some .float) z
    pure (.vector ⟨x.asFloat, y.asFloat, z.asFloat⟩)
  | .rotation x y z w => do
    let x ← r.eval (some .float) x
    let y ← r.eval (some .float) y
    let z ← r.eval (some .float) z
    let w ← r.eval (some .float) w
    pure (.rotation ⟨x.asFloat, y.asFloat, z.asFloat, w.asFloat⟩)
  | .list items => do
    let values ← r.evalAll items
    pure (.splice values)
  | .component of axis => do
    let v ← r.eval none of
    .of (Eval.component v.type.name v axis)
  | .subscript list index => do
    let v ← r.eval none list
    let i ← r.eval none index
    .of (Eval.element s!"list of {v.asList.length}" v.asList i.asInteger hint)
  | .slice list start stop => do
    let v ← r.eval none list
    let first ← r.eval none start
    let last ← r.eval none stop
    pure (.list (Slice.keep v.asList first.asInteger last.asInteger))
  | .cast type operand => do
    let v ← r.eval (some type) operand
    pure (v.coerce type)
  | .assign target op value => do
    let hint ← Act.of target.hint?
    let v ← r.eval hint value
    match op.binary? with
    | none => r.write target v
    | some op => do
      let old ← r.read target
      let new ← Act.of (Eval.binary op old v)
      r.write target new

def test : Option Expr → Act Bool
  | some e => do
    let v ← r.eval none e
    pure v.truthy
  | none => pure true

def loop (condition : Option Expr) (step : List Expr) (body : Stmt) (count : UInt64) : Act Flow := do
  if ← r.test condition then r.passes condition step body count else pure .normal

def behind (condition : Option Expr) (step : List Expr) (body : Stmt) (flow : Flow)
    (count : UInt64) : Act Flow :=
  match flow with
  | .break => pure .normal
  | .normal | .continue => do
    match ← Act.of Eval.takeRequest with
    | some target => pure (.state target)
    | none => do
      r.effects step
      r.loop condition step body count
  | flow => pure flow

def passesOnce (condition : Option Expr) (step : List Expr) (body : Stmt) (count : UInt64) :
    Act Flow :=
  if c.loopCap < count + 1 then .of (Flow.capped "loop" c.loopCap.toNat)
  else do
    let flow ← r.run body
    r.behind condition step body flow (count + 1)

def next (body : List Stmt) (pc : Nat) (flow : Flow) (count : UInt64) : Act Flow := do
  match ← Act.of Eval.takeRequest with
  | some target => pure (.state target)
  | none =>
    match flow with
    | .normal => r.block body (pc + 1) count
    | .jump label =>
      match labelIndex? body label with
      | none => pure (.jump label)
      | some target =>
        if pc < target then r.block body (target + 1) count
        else if c.loopCap < count + 1 then .of (Flow.capped s!"jump to `{label}`" c.loopCap.toNat)
        else r.block body (target + 1) (count + 1)
    | flow => pure flow

def blockOnce (body : List Stmt) (pc : Nat) (count : UInt64) : Act Flow :=
  match body[pc]? with
  | none => pure .normal
  | some t => do
    let flow ← r.run t
    r.next c body pc flow count

def runOnce : Stmt → Act Flow
  | .declare name type none => do
    Act.of (Eval.declare name type (.zero type))
    pure .normal
  | .declare name type (some e) => do
    let v ← r.evalAs type e
    Act.of (Eval.declare name type v)
    pure .normal
  | .assign target op value => do
    let _ ← r.eval none (.assign target op value)
    pure .normal
  | .expr e => do
    let _ ← r.eval none e
    pure .normal
  | .ite condition yes none => do
    if ← r.test (some condition) then r.run yes else pure .normal
  | .ite condition yes (some no) => do
    if ← r.test (some condition) then r.run yes else r.run no
  | .while condition body => r.loop (some condition) [] body 0
  | .doWhile body condition => r.passes (some condition) [] body 0
  | .for init condition step body => do
    r.effects init
    r.loop condition step body 0
  | .return none => pure (.return none)
  | .return (some e) => do
    let type ← Act.of Eval.returnType?
    let v ← r.eval type e
    pure (.return (some (match type with
      | some t => v.coerce t
      | none => v)))
  | .state target => .of (Flow.stated target)
  | .jump name => pure (.jump name)
  | .block body => r.block body 0 0
  | .break => pure .break
  | .continue => pure .continue
  | .label _ | .empty => pure .normal

def resumeBlock (body : List Stmt) : List Nat → Act Flow
  | [] => pure .normal
  | i :: path =>
    match body[i]? with
    | none => .of (Eval.fail (.lostIndex i))
    | some t => do
      let flow ← r.resume t path
      r.next c body i flow 0

def resumeOnce : Stmt → List Nat → Act Flow
  | .block body, path => r.resumeBlock c body path
  | .ite _ yes _, 0 :: path => r.resume yes path
  | .ite _ _ (some no), 1 :: path => r.resume no path
  | .ite _ _ _, _ => .of (Eval.fail .lostBranch)
  | .while condition body, path => do
    let flow ← r.resume body path.tail
    r.behind (some condition) [] body flow 0
  | .doWhile body condition, path => do
    let flow ← r.resume body path.tail
    r.behind (some condition) [] body flow 0
  | .for _ condition step body, path => do
    let flow ← r.resume body path.tail
    r.behind condition step body flow 0
  | _, _ => pure .normal

def jumpsOnce (body : List Stmt) (count : UInt64) : Flow → Act Flow
  | .jump label =>
    match pathIn? label 0 body with
    | none => .of (Eval.fail (.undefinedLabel label))
    | some path =>
      if c.loopCap < count + 1 then .of (Flow.capped s!"jump to `{label}`" c.loopCap.toNat)
      else do
        let flow ← r.resumeBlock c body path
        r.jumps body (count + 1) flow
  | flow => pure flow

def runBody (body : List Stmt) : Act Flow := do
  let flow ← r.block body 0 0
  r.jumps body 0 flow

def result : Option ValueType → Option Value → Act Value
  | some t, some v => pure (v.coerce t)
  | some t, none => pure (.zero t)
  | none, _ => pure (.integer 0)

def act (f : Function) : Act Value := do
  let returned ← match ← r.runBody f.body with
    | .return v => pure v
    | .state target => do
      Act.of (Eval.request target)
      pure none
    | _ => pure none
  result f.returns returned

def callOnce (name : String) (f : Function) (args : List Value) : Act Value := fun m =>
  if c.maxCallDepth ≤ m.stack.depth then
    some ((Eval.fail (.depthExceeded c.maxCallDepth)).on m)
  else (r.act f).inFrame ((Frame.empty name f.returns).bind f.params args) m

def once : Runs where
  eval := r.evalOnce c
  call := r.callOnce c
  run := r.runOnce
  passes := r.passesOnce c
  block := r.blockOnce c
  resume := r.resumeOnce c
  jumps := r.jumpsOnce c

def bindGlobals : List Global → Act Unit
  | [] => pure ()
  | g :: rest => do
    let v ← match g.init with
      | some e => r.evalAs g.type e
      | none => pure (.zero g.type)
    Act.of (Eval.declare g.name g.type v)
    bindGlobals rest

def respond (h : Handler) : Act (Option String) := do
  match ← r.runBody h.body with
  | .state target => pure (some target)
  | _ => .of Eval.takeRequest

end Runs

namespace Context

def ofScript (script : Script) (settings : Settings) (detected : List Entity) : Context :=
  ⟨script.functions, .ofNat settings.loopCap, settings.maxCallDepth, detected⟩

/-- The evaluator unfolded that many times. -/
def runs (c : Context) : Nat → Runs
  | 0 => .nothing
  | n + 1 => (c.runs n).once c

end Context

end PrimScript.Unbounded

namespace PrimScript.Machine

open Unbounded

def bindGlobals? (m : Machine) (n : Nat) (script : Script) : Option (Except Halt Unit × Machine) :=
  let c := Context.ofScript script m.world.settings []
  (c.runs n).bindGlobals script.globals { m with requested := none }

def handle? (m : Machine) (n : Nat) (script : Script) (h : Handler) (e : Event) :
    Option (Except Halt (Option String) × Machine) :=
  let c := Context.ofScript script m.world.settings e.detected
  ((c.runs n).respond h).inFrame ((Frame.empty e.kind.name none).bind h.params e.args)
    { m with requested := none }

def call? (m : Machine) (n : Nat) (script : Script) (detected : List Entity) (name : String)
    (f : Function) (args : List Value) : Option (Except Halt Value × Machine) :=
  let c := Context.ofScript script m.world.settings detected
  (c.runs n).call name f args m

end PrimScript.Machine
