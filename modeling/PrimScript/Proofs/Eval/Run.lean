import PrimScript.Proofs.Eval.Ensures
import PrimScript.Proofs.Eval.Stmt

/-! What a call of the library comes to and what it leaves of the machine; and functions, handlers and initial
values, which keep to contracts.  Functions run in frames of their own, so a contract has to hold for the frames
that come and go. -/

namespace PrimScript

namespace Eval

def callOf (f : LibraryFunction) (args : List Value) (detected : List Entity) (w : World) : Called :=
  ⟨w, ⟨f.name, args, detected⟩, (f.run ⟨f.name, args, detected⟩ w).1⟩

theorem on_callLibrary (f : LibraryFunction) (args : List Value) (detected : List Entity)
    (m : Machine) :
    (callLibrary f args detected).on m =
      let r := callOf f args detected m.world.meanwhile
      match f.run ⟨f.name, args, detected⟩ m.world.meanwhile with
      | (.value v, w) => (.ok (f.returns.elim (.integer 0) v.coerce), m.afterCall r w)
      | (.pause span, w) => (.ok (fallback f.returns), m.afterCall r (w.pause span))
      | (.invalid reason, w) =>
        (.ok (fallback f.returns),
          m.afterCall r (w.report .typeMismatch (Reply.invalidMessage f.name reason)))
      | (.failed reason, w) =>
        (.ok (fallback f.returns),
          m.afterCall r (w.report .asyncFailure (Reply.failedMessage f.name reason)))
      | (.overlong, w) => (.error .overlong, m.afterCall r w) := by
  rw [callLibrary, on_bind, callOf]
  rcases hr : f.run ⟨f.name, args, detected⟩ m.world.meanwhile with ⟨reply, w⟩
  cases reply with
  | value v => cases ht : f.returns <;> simp [on_bind, hr, -bind_pure_comp]
  | pause span => simp [on_bind, hr, Machine.afterCall, -bind_pure_comp]
  | invalid reason => simp [on_bind, hr, warn, Machine.afterCall, -bind_pure_comp]
  | failed reason => simp [on_bind, hr, warn, Machine.afterCall, -bind_pure_comp]
  | overlong => simp [on_bind, hr]

def worldAfter (f : LibraryFunction) : Reply × World → World
  | (.pause span, w) => w.pause span
  | (.invalid reason, w) => w.report .typeMismatch (Reply.invalidMessage f.name reason)
  | (.failed reason, w) => w.report .asyncFailure (Reply.failedMessage f.name reason)
  | (_, w) => w

theorem on_callLibrary_snd (f : LibraryFunction) (args : List Value) (detected : List Entity)
    (m : Machine) :
    ((callLibrary f args detected).on m).2 =
      m.afterCall (callOf f args detected m.world.meanwhile)
        (worldAfter f (f.run ⟨f.name, args, detected⟩ m.world.meanwhile)) := by
  rw [on_callLibrary]
  rcases f.run ⟨f.name, args, detected⟩ m.world.meanwhile with ⟨reply, w⟩
  cases reply <;> rfl

theorem Meets.callLibrary {P : Machine → Prop} {Q : Value → Machine → Prop}
    {X : Halt → Machine → Prop} (hq : ∀ m r w v, P m → Q v (m.afterCall r w))
    (hx : ∀ m r w, P m → X .overlong (m.afterCall r w)) (f : LibraryFunction) (args : List Value)
    (detected : List Entity) : Meets P Q X (callLibrary f args detected) := by
  intro m hm
  rw [on_callLibrary]
  dsimp only
  rcases f.run ⟨f.name, args, detected⟩ m.world.meanwhile with ⟨reply, w⟩
  cases reply with
  | value v => exact hq m _ _ _ hm
  | pause span => exact hq m _ _ _ hm
  | invalid reason => exact hq m _ _ _ hm
  | failed reason => exact hq m _ _ _ hm
  | overlong => exact hx m _ w hm

/-- The type of what a function gives: an integer for one that gives nothing. -/
def resultType (returns : Option ValueType) : ValueType := returns.getD .integer

theorem type_fallback (returns : Option ValueType) :
    (fallback returns).type = resultType returns := by
  cases returns with
  | none => rfl
  | some t => exact Value.type_zero t

theorem of_on_callLibrary {f : LibraryFunction} {args : List Value} {detected : List Entity}
    {m : Machine} {v : Value} (h : ((callLibrary f args detected).on m).1 = .ok v) :
    v = fallback f.returns ∨
      ∃ u, (f.run ⟨f.name, args, detected⟩ m.world.meanwhile).1 = .value u ∧
        v = f.returns.elim (.integer 0) u.coerce := by
  rw [on_callLibrary] at h
  rcases hr : f.run ⟨f.name, args, detected⟩ m.world.meanwhile with ⟨reply, w⟩
  rw [hr] at h
  cases reply with
  | value u =>
    cases h
    exact .inr ⟨u, rfl, rfl⟩
  | pause span =>
    cases h
    exact .inl rfl
  | invalid reason =>
    cases h
    exact .inl rfl
  | failed reason =>
    cases h
    exact .inl rfl
  | overlong => cases h

theorem type_of_on_callLibrary {f : LibraryFunction} {args : List Value}
    {detected : List Entity} {m : Machine} {v : Value}
    (h : ((callLibrary f args detected).on m).1 = .ok v) : v.type = resultType f.returns := by
  obtain rfl | ⟨u, -, rfl⟩ := of_on_callLibrary h
  · exact type_fallback f.returns
  · cases f.returns with
    | none => rfl
    | some t => exact Value.type_coerce t u

end Eval

section Given

open Eval

/-- Arguments that are there without anything being done for them and fit parameters of these types, and
the values that the parameters get. -/
inductive Expr.Given (s : Scope) : List ValueType → List Expr → List Value → Prop
  | nil : Given s [] [] []
  | cons {t : ValueType} {ts : List ValueType} {e : Expr} {es : List Expr} {v v' : Value}
    {vs : List Value} : e.eval s (some t) = pure v → v.type.fits t → v.coerce t = v' →
    Given s ts es vs → Given s (t :: ts) (e :: es) (v' :: vs)

namespace Expr.Given

variable {s : Scope} {ts : List ValueType} {es : List Expr} {vs : List Value}

theorem length (h : Given s ts es vs) : es.length = ts.length ∧ vs.length = ts.length := by
  induction h with
  | nil => exact ⟨rfl, rfl⟩
  | cons _ _ _ _ ih => exact ⟨congrArg (· + 1) ih.1, congrArg (· + 1) ih.2⟩

theorem evalArgs (h : Given s ts es vs) (callee : String) (number : Nat) :
    evalArgs s callee number ts es = pure vs := by
  induction h generalizing number with
  | nil => rw [Expr.evalArgs]
  | cons he hfits hv _ ih => simp [Expr.evalArgs, argument, he, hfits, hv, ih]

theorem eval_call {f : LibraryFunction} (h : Given s f.params es vs) {name : String}
    (hn : s.functions.find? name = none) (hf : Library.find? name = some f) (hint : Option ValueType) :
    (call name es).eval s hint = callLibrary f vs s.detected := by
  obtain ⟨hes, hvs⟩ := h.length
  simp [Expr.eval, hn, hf, h.evalArgs, complete, hes, List.drop_eq_nil_of_le, hvs]

end Expr.Given

end Given

open Eval

variable {s : Scope}

def Function.act (f : Function) (s : Scope) : Eval Value := do
  let returned ← match ← s.runBody f.body with
    | .return v => pure v
    | .state target => do
      Eval.request target
      pure none
    | _ => pure none
  match f.returns, returned with
  | some t, some v => pure (v.coerce t)
  | some t, none => pure (.zero t)
  | none, _ => pure (.integer 0)

theorem Function.run_eq (f : Function) (s : Scope) (name : String) (args : List Value) :
    f.run s name args =
      withFrame ((Frame.empty name f.returns).bind f.params args) (f.act s) := rfl

def Handler.act (h : Handler) (s : Scope) : Eval (Option String) := do
  match ← s.runBody h.body with
  | .state target => pure (some target)
  | _ => takeRequest

theorem Handler.run_eq (h : Handler) (script : Script) (e : Event) :
    h.run script e =
      withFrame ((Frame.empty e.kind.name none).bind h.params e.args)
        (script.inScope e.detected h.act) := rfl

theorem Script.on_inScope {α : Type} (script : Script) (detected : List Entity)
    (act : Scope → Eval α) (m : Machine) :
    (script.inScope detected act).on m =
      (act (.ofScript script m.world.settings detected
        (m.world.settings.maxCallDepth - m.stack.depth))).on m := by
  rw [Script.inScope, on_bind, on_get]

theorem Scope.functions_ofScript (script : Script) (settings : Settings) (detected : List Entity)
    (n : Nat) : (ofScript script settings detected n).functions = script.functions := by
  cases n <;> rfl

theorem Scope.detected_ofScript (script : Script) (settings : Settings) (detected : List Entity)
    (n : Nat) : (ofScript script settings detected n).detected = detected := by
  cases n <;> rfl

theorem Eval.Meets.withFrame {α : Type} {P P' : Machine → Prop} {Q Q' : α → Machine → Prop}
    {X X' : Halt → Machine → Prop} {f : Frame} {act : Eval α} (h : Meets P' Q' X' act)
    (hp : ∀ m, P m → P' (m.setStack (m.stack.push f)))
    (hq : ∀ a m, Q' a m → Q a (m.setStack m.stack.pop))
    (hx : ∀ x m, X' x m → X x (m.setStack m.stack.pop)) : Meets P Q X (Eval.withFrame f act) := by
  intro m hm
  have hr := h _ (hp m hm)
  rw [on_withFrame]
  generalize act.on (m.setStack (m.stack.push f)) = r at hr ⊢
  rcases r with ⟨x | a, n⟩
  · exact hx x n hr
  · exact hq a n hr

namespace Eval.Contract

structure ForCalls (K : Contract) : Prop extends K.ForBodies where
  request : ∀ {m target}, K.flow (.state target) m → K.machine (m.request target)
  enter : ∀ {m} owner returns params {args : List Value}, K.machine m → (∀ v ∈ args, K.value v) →
    K.machine (m.setStack (m.stack.push ((Frame.empty owner returns).bind params args)))
  leave : ∀ {m f}, K.flow f m → K.flow f (m.setStack m.stack.pop)
  halted : ∀ {m x}, K.halt x m → K.halt x (m.setStack m.stack.pop)
  tooDeep : ∀ {m} limit, K.machine m → K.halt (.error (.depthExceeded limit)) m

variable {K : Contract}

theorem ForBodies.yields_act (h : K.ForBodies) (hs : K.Calls s)
    (hr : ∀ {m target}, K.flow (.state target) m → K.machine (m.request target)) (f : Function)
    (ht : ∀ x ∈ targetsOfBody f.body, K.target x) :
    K.Yields (fun v => K.value v ∧ v.type = resultType f.returns) (f.act s) := by
  have hresult : ∀ returned : Option Value, (∀ v ∈ returned, K.value v) →
      K.Yields (fun v => K.value v ∧ v.type = resultType f.returns)
        (match f.returns, returned with
        | some t, some v => pure (v.coerce t)
        | some t, none => pure (.zero t)
        | none, _ => pure (.integer 0)) := by
    intro returned hv
    cases f.returns with
    | none => exact .pure ⟨h.closed.integer 0, rfl⟩
    | some t =>
      cases returned with
      | none => exact .pure ⟨h.closed.zero t, Value.type_zero t⟩
      | some v => exact .pure ⟨h.closed.coerce t (hv v rfl), Value.type_coerce t v⟩
  have hnone {flow : Flow} (hf : ∀ target, flow ≠ .state target) :=
    Meets.mono (hresult none (by simp)) (fun _ => h.within (f := flow) hf) fun _ _ => id
  apply Meets.bind (s.ends_runBody h hs ht)
  intro flow
  cases flow with
  | «return» v =>
    intro m hm
    exact hresult v (h.returned hm) m (h.within (by simp) hm)
  | state target => exact Meets.bind (Meets.modify fun _ => hr) fun _ => hresult none (by simp)
  | normal => exact hnone (by simp)
  | «break» => exact hnone (by simp)
  | «continue» => exact hnone (by simp)
  | jump label => exact hnone (by simp)

theorem ForBodies.taken_act (h : K.ForBodies) (hs : K.Calls s) (f : Handler)
    (ht : ∀ x ∈ targetsOfBody f.body, K.target x) :
    Meets K.machine (K.Taken K.machine) K.halt (f.act s) := by
  have htake {flow : Flow} (hf : ∀ target, flow ≠ .state target) :
      Meets (K.flow flow) (K.Taken K.machine) K.halt Eval.takeRequest := by
    refine (h.takeRequest flow).mono (fun _ => id) fun r m hm => ?_
    cases r with
    | none => exact h.within hf hm
    | some target => exact hm
  apply Meets.bind (s.ends_runBody h hs ht)
  intro flow
  cases flow with
  | state target => exact Meets.pure fun _ => id
  | normal => exact htake (by simp)
  | «return» v => exact htake (by simp)
  | «break» => exact htake (by simp)
  | «continue» => exact htake (by simp)
  | jump label => exact htake (by simp)

namespace ForCalls

variable (h : K.ForCalls)
include h

theorem leaveMachine {m : Machine} (hm : K.machine m) : K.machine (m.setStack m.stack.pop) :=
  h.within (f := .normal) (by simp) (h.leave (h.plain trivial hm))

theorem yields_run {f : Function} (hs : K.Calls s) (ht : ∀ x ∈ targetsOfBody f.body, K.target x)
    (name : String) {args : List Value} (hargs : ∀ v ∈ args, K.value v) :
    K.Yields (fun v => K.value v ∧ v.type = resultType f.returns) (f.run s name args) := by
  rw [f.run_eq]
  exact Meets.withFrame (h.yields_act hs h.request f ht)
    (fun m hm => h.enter name f.returns f.params hm hargs)
    (fun _ m hm => ⟨h.leaveMachine hm.1, hm.2⟩) fun _ _ => h.halted

section Script

variable {script : Script}
  (ht : ∀ name f, script.functions.find? name = some f → ∀ x ∈ targetsOfBody f.body, K.target x)
include ht

theorem calls (settings : Settings) (detected : List Entity) (n : Nat) :
    K.Calls (.ofScript script settings detected n) := by
  -- On the calls that may still be made inside of each other.
  induction n with
  | zero =>
    intro name f args _ _
    exact Meets.throw fun _ => h.tooDeep _
  | succ n ih =>
    intro name f args hf hargs
    exact (h.yields_run ih (ht name f hf) name hargs).mono fun _ => And.left

theorem handle (f : Handler) (hf : ∀ x ∈ targetsOfBody f.body, K.target x) {e : Event}
    (hargs : ∀ v ∈ e.args, K.value v) :
    Meets K.machine (K.Taken K.machine) K.halt (f.run script e) := by
  rw [f.run_eq]
  have ha : Meets K.machine (K.Taken K.machine) K.halt (script.inScope e.detected f.act) := by
    intro m hm
    rw [script.on_inScope]
    exact h.taken_act (h.calls ht _ _ _) f hf m hm
  refine ha.withFrame (fun m hm => h.enter e.kind.name none f.params hm hargs) (fun r m hm => ?_)
    fun _ _ => h.halted
  cases r with
  | none => exact h.leaveMachine hm
  | some target => exact h.leave hm

theorem bindGlobals (globals : List Global) :
    K.Yields (fun _ => True) (script.inScope [] (·.bindGlobals globals)) := by
  intro m hm
  rw [script.on_inScope]
  exact Scope.yields_bindGlobals h.toForBodies (h.calls ht _ _ _) globals m hm

end Script

end ForCalls

end Eval.Contract

theorem Scope.on_runBody_state (s : Scope) (target : String) {m : Machine}
    (h : m.requested = none) :
    (s.runBody [.state target]).on m = (.ok (.state target), m.note (.stated target)) := by
  have hn : (m.note (.stated target)).requested = none := h
  simp [runBody, afterJumps, block, on_bind, on_unlessRequested hn, Block.run, Block.runFrom_none,
    Block.runFrom_some, Block.next, Stmt.runs, Stmt.run, Flow.stated]

theorem Scope.on_runBody_jump (s : Scope) (label : String) {m : Machine} (h : m.requested = none) :
    (s.runBody [.jump label]).on m = (.error (.error (.undefinedLabel label)), m) := by
  have hl : labelIndex? [.jump label] label = none := rfl
  have hp : pathIn? label 0 [.jump label] = none := rfl
  simp [runBody, block, on_bind, on_unlessRequested h, Block.run, Block.runFrom_none,
    Block.runFrom_some, Block.next, Stmt.runs, Stmt.run, hl, afterJumps, hp]

theorem Scope.on_runBody_expr (s : Scope) {e : Expr} {r : Except Halt Value} {m m' : Machine}
    (he : (e.eval s none).on m = (r, m')) (hm' : m'.requested = none) :
    (s.runBody [.expr e]).on m = (r.map fun _ => .normal, m') := by
  have hd : (discard (e.eval s none)).on m = (r.map fun _ => (), m') := by
    rw [on_discard, on_bind, he]
    cases r <;> rfl
  cases r with
  | error x =>
    simp [runBody, block, on_bind, hd, Except.map, Block.run, Block.runFrom_none, Block.runFrom_some,
      Block.next, Stmt.runs, Stmt.run, -bind_pure_comp]
  | ok v =>
    simp [runBody, afterJumps, block, on_bind, hd, Except.map, on_unlessRequested hm', Block.run,
      Block.runFrom_none, Block.runFrom_some, Block.runFrom_of_le, Block.next, Stmt.runs, Stmt.run,
      -bind_pure_comp]

theorem Machine.fst_handle_state {f : Handler} {target : String} (hf : f.body = [.state target])
    (m : Machine) (script : Script) (e : Event) : (m.handle script f e).1 = .ok (some target) := by
  change ((f.run script e).on { m with requested := none }).1 = _
  rw [f.run_eq, on_withFrame, script.on_inScope, Handler.act, hf, on_bind,
    Scope.on_runBody_state _ _ rfl]
  rfl

theorem Machine.handle_jump {f : Handler} {label : String} (hf : f.body = [.jump label])
    (m : Machine) (script : Script) (e : Event) :
    (m.handle script f e).1 = .error (.error (.undefinedLabel label)) ∧
      (m.handle script f e).2.world = m.world ∧ (m.handle script f e).2.called = m.called := by
  have hrun : m.handle script f e = (f.run script e).on { m with requested := none } := rfl
  rw [hrun, f.run_eq, on_withFrame, script.on_inScope, Handler.act, hf, on_bind,
    Scope.on_runBody_jump _ _ rfl]
  exact ⟨rfl, rfl, rfl⟩

section Library

variable {script : Script} {h : Handler} {name : String} {es : List Expr} {f : LibraryFunction}
  {args : List Value}

theorem Machine.handle_call (hh : h.body = [.expr (.call name es)])
    (hn : script.functions.find? name = none) (hf : Library.find? name = some f)
    (hargs : ∀ s, Expr.Given s f.params es args) (m : Machine) (x : Event) :
    let r := (callLibrary f args x.detected).on ({ m with requested := none }.setStack
      (m.stack.push ((Frame.empty x.kind.name none).bind h.params x.args)))
    m.handle script h x = (r.1.map fun _ => none, r.2.setStack r.2.stack.pop) := by
  let m' : Machine := { m with requested := none }.setStack
    (m.stack.push ((Frame.empty x.kind.name none).bind h.params x.args))
  let s := Scope.ofScript script m'.world.settings x.detected
    (m'.world.settings.maxCallDepth - m'.stack.depth)
  have hs : s.functions = script.functions := Scope.functions_ofScript ..
  -- A call of the library does not ask for a state.
  have hnone : ((callLibrary f args x.detected).on m').2.requested = none := by
    rw [on_callLibrary_snd]
    rfl
  change m.handle script h x = (((callLibrary f args x.detected).on m').1.map fun _ => none,
    ((callLibrary f args x.detected).on m').2.setStack _)
  have he : ((Expr.call name es).eval s none).on m' = (callLibrary f args x.detected).on m' := by
    rw [(hargs s).eval_call (hs ▸ hn) hf, Scope.detected_ofScript]
  generalize (callLibrary f args x.detected).on m' = r at hnone he ⊢
  have hb : (s.runBody [.expr (.call name es)]).on m' = (r.1.map fun _ => .normal, r.2) :=
    s.on_runBody_expr he hnone
  have hrun : m.handle script h x = (h.run script x).on { m with requested := none } := rfl
  rw [hrun, h.run_eq, on_withFrame, script.on_inScope, Handler.act, hh, on_bind, hb]
  rcases r with ⟨e | v, n⟩
  · rfl
  · dsimp only [Except.map]
    rw [on_takeRequest hnone]

theorem Machine.handle_library (hh : h.body = [.expr (.call name es)])
    (hn : script.functions.find? name = none) (hf : Library.find? name = some f)
    (hargs : ∀ s, Expr.Given s f.params es args) {m : Machine} (x : Event)
    (hm : m.world.meanwhile = m.world) {v : Value} {w : World}
    (hr : f.run ⟨f.name, args, x.detected⟩ m.world = (.value v, w)) :
    (m.handle script h x).1 = .ok none ∧ (m.handle script h x).2.world = w ∧
      (m.handle script h x).2.called = m.called.push (callOf f args x.detected m.world) := by
  generalize hm' : { m with requested := none }.setStack
    (m.stack.push ((Frame.empty x.kind.name none).bind h.params x.args)) = m'
  have hw : m'.world.meanwhile = m.world := hm' ▸ hm
  have hcall : (callLibrary f args x.detected).on m' =
      (.ok (f.returns.elim (.integer 0) v.coerce),
        m'.afterCall (callOf f args x.detected m.world) w) := by
    rw [on_callLibrary, hw, hr]
  rw [handle_call hh hn hf hargs, hm', hcall, ← hm']
  exact ⟨rfl, rfl, rfl⟩

theorem Machine.fst_handle_overlong (hh : h.body = [.expr (.call name es)])
    (hn : script.functions.find? name = none) (hf : Library.find? name = some f)
    (hargs : ∀ s, Expr.Given s f.params es args) {m : Machine} {x : Event} {w : World}
    (hr : f.run ⟨f.name, args, x.detected⟩ m.world.meanwhile = (.overlong, w)) :
    (m.handle script h x).1 = .error .overlong := by
  generalize hm' : { m with requested := none }.setStack
    (m.stack.push ((Frame.empty x.kind.name none).bind h.params x.args)) = m'
  have hw : m'.world = m.world := hm' ▸ rfl
  have hcall : (callLibrary f args x.detected).on m' =
      (.error .overlong, m'.afterCall (callOf f args x.detected m.world.meanwhile) w) := by
    rw [on_callLibrary, hw, hr]
  rw [handle_call hh hn hf hargs, hm', hcall]
  rfl

end Library

end PrimScript
