import PrimScript.Proofs.Engine.Request
import PrimScript.Proofs.Eval.Prompt

/-! Handlers that are prompt: none of their statements is begun while a state is asked for. -/

namespace PrimScript

open Eval Machine

def Handler.runPromptly (h : Handler) (script : Script) (e : Event) : Eval (Option String) :=
  withFrame ((Frame.empty e.kind.name none).bind h.params e.args)
    (script.inScope e.detected h.actPromptly)

/-- Runs a handler as `Machine.handle` does, but begins none of its statements while a state is asked for. -/
def Machine.handlePromptly (m : Machine) (script : Script) (h : Handler) (e : Event) :
    Except Halt (Option String) × Machine :=
  m.perform (h.runPromptly script e)

/-- A handler is prompt when the conditions of its branches and the heads of its loops call no function of the
script. -/
theorem Machine.handlePromptly_eq {script : Script} {h : Handler}
    (hh : ∀ x ∈ headsOf h.body, ∀ name, .call name ∈ x.deeds → script.functions.find? name = none)
    {m : Machine} (hm : m.stack.frames = []) (e : Event) :
    m.handlePromptly script h e = m.handle script h e := by
  let m' := { m with requested := none }.setStack
    (m.stack.push ((Frame.empty e.kind.name none).bind h.params e.args))
  have hd : m'.stack.depth = 1 := congrArg (·.length + 1) hm
  have ha : (script.inScope e.detected h.act).on m' =
      (script.inScope e.detected h.actPromptly).on m' := by
    rw [script.on_inScope, script.on_inScope]
    refine h.same_act (Scope.outer_run _ _ _ _) (fun x hx name hn => ?_) m' ⟨Nat.le_of_eq hd, rfl⟩
    rw [Scope.functions_ofScript]
    exact hh x hx name hn
  change (h.runPromptly script e).on { m with requested := none } =
    (h.run script e).on { m with requested := none }
  rw [h.run_eq, Handler.runPromptly, on_withFrame, on_withFrame, ha]

def Expr.speak : Expr := .call "llSay" [.literal (.integer 0), .literal (.string "on")]

def Handler.ready : Handler :=
  ⟨[], [.ite (.literal (.integer 1)) (.expr (.call "leave" [])) none, .expr .speak]⟩

theorem Machine.handlePromptly_eq_ready :
    (∀ x ∈ headsOf Handler.ready.body, ∀ name, .call name ∈ x.deeds →
      Script.leaving.functions.find? name = none) ∧
    (ofWorld (.ofSettings .default (.plain []))).stack.frames = [] ∧
    (ofWorld (.ofSettings .default (.plain []))).handlePromptly .leaving .ready (.ofKind .touchStart []) =
      (ofWorld (.ofSettings .default (.plain []))).handle .leaving .ready (.ofKind .touchStart []) := by
  have hh : ∀ x ∈ headsOf Handler.ready.body, ∀ name, .call name ∈ x.deeds →
      Script.leaving.functions.find? name = none := by
    simp [headsOf, Stmt.heads, Handler.ready, Expr.deeds]
  exact ⟨hh, rfl, handlePromptly_eq hh rfl _⟩

def Handler.tardy : Handler := ⟨[], [.ite (.unary .not (.call "leave" [])) (.expr .speak) none]⟩

section Tardy

variable {settings : Settings} {detected : List Entity} {n : Nat} {m : Machine}

theorem Script.on_test_tardy (h : m.requested = none) :
    (Scope.test (.ofScript leaving settings detected (n + 1)) (.unary .not (.call "leave" []))).on m =
      (.ok true, m.left) := by
  have hn : Value.applyUnary .not (.integer 0) = some (.integer 1) := rfl
  have ht : (Value.integer 1).truthy = true := by decide
  rw [Scope.test, Expr.eval]
  simp [on_bind, on_call_leave h, Eval.unary, hn, ht, -bind_pure_comp]

theorem Script.on_runBodyPromptly_tardy (hd : m.stack.depth ≤ 1) (h : m.requested = none) :
    (Scope.runBodyPromptly (.ofScript leaving settings detected (n + 1)) Handler.tardy.body).on m =
      (.ok (.state "far"), { m.left with requested := none }) := by
  have hu (next : Eval Flow) := @on_unlessRequested_some next m.left "far" hd rfl
  have hl (next : Eval Flow) := @on_unlessRequested next { m.left with requested := none } rfl
  simp [Scope.runBodyPromptly, Scope.block, Handler.tardy, Block.run, Block.runFrom_none,
    Block.runFrom_some, Block.next, on_bind, Stmt.promptlyAll, Stmt.promptly, heeding,
    on_unlessRequested h, on_test_tardy h, hu, hl, Scope.afterJumps, -bind_pure_comp]

theorem Expr.on_eval_speak {s : Scope} (hs : s.functions.find? "llSay" = none) (m : Machine) :
    ∃ m', (Expr.speak.eval s none).on m = (.ok (.integer 0), m') ∧ m'.stack = m.stack ∧
      m'.requested = m.requested ∧ m'.world.chat.size = m.world.meanwhile.chat.size + 1 := by
  have hargs : Given s (Library.saying "llSay" .say).params [.literal (.integer 0), .literal (.string "on")]
      [.integer 0, .string "on"] :=
    .cons (v := .integer 0) rfl rfl rfl <| .cons (v := .string "on") rfl rfl rfl .nil
  rw [speak, hargs.eval_call hs rfl, on_callLibrary]
  exact ⟨_, rfl, rfl, rfl, Array.size_push _⟩

theorem Script.on_runBody_tardy (hd : m.stack.depth ≤ 1) (h : m.requested = none) :
    ∃ m', (Scope.runBody (.ofScript leaving settings detected (n + 1)) Handler.tardy.body).on m =
        (.ok (.state "far"), m') ∧ m'.world.chat.size = m.world.meanwhile.chat.size + 1 := by
  obtain ⟨m', he, hs, hr, hw⟩ :=
    Expr.on_eval_speak (s := .ofScript leaving settings detected (n + 1)) rfl m.left
  refine ⟨{ m' with requested := none }, ?_, hw⟩
  have hu (next : Eval Flow) := @on_unlessRequested_some next m' "far" (hs ▸ hd) hr
  simp [Scope.runBody, Scope.block, Handler.tardy, Block.run, Block.runFrom_none, Block.runFrom_some,
    on_bind, Stmt.runs, Stmt.run, on_test_tardy h, he, hu, on_discard, Scope.afterJumps,
    -bind_pure_comp]

/-- The request made in the condition is taken note of behind the branch: either way the handler asks for the
state, but it speaks first. -/
theorem Machine.handle_tardy :
    let m := ofWorld (.ofSettings .default (.plain []))
    let r := m.handle .leaving .tardy (.ofKind .touchStart [])
    let r' := m.handlePromptly .leaving .tardy (.ofKind .touchStart [])
    (r.1 = .ok (some "far") ∧ r.2.world.chat.size = 1) ∧
      r'.1 = .ok (some "far") ∧ r'.2.world.chat.size = 0 := by
  intro m r r'
  let m' : Machine := m.setStack (m.stack.push (.empty "touch_start" none))
  let s : Scope := .ofScript .leaving m.world.settings [] 255
  obtain ⟨m'', hb, hw⟩ : ∃ m'', (s.runBody Handler.tardy.body).on m' = (.ok (.state "far"), m'') ∧
      m''.world.chat.size = m'.world.meanwhile.chat.size + 1 :=
    Script.on_runBody_tardy (n := 254) (by decide) rfl
  have hb' : (s.runBodyPromptly Handler.tardy.body).on m' =
      (.ok (.state "far"), { m'.left with requested := none }) :=
    Script.on_runBodyPromptly_tardy (n := 254) (by decide) rfl
  have ha : (Handler.tardy.act s).on m' = (.ok (some "far"), m'') := by
    rw [Handler.act, on_bind, hb]
    rfl
  have ha' : (Handler.tardy.actPromptly s).on m' =
      (.ok (some "far"), { m'.left with requested := none }) := by
    rw [Handler.actPromptly, on_bind, hb']
    rfl
  have hr : r = (.ok (some "far"), m''.setStack m''.stack.pop) := by
    change (Handler.tardy.run .leaving (.ofKind .touchStart [])).on m = _
    rw [Handler.run_eq, on_withFrame, Script.on_inScope]
    exact congrArg (fun x => (x.1, x.2.setStack x.2.stack.pop)) ha
  have hr' : r' =
      (.ok (some "far"), { m'.left with requested := none }.setStack m'.left.stack.pop) := by
    change (Handler.tardy.runPromptly .leaving (.ofKind .touchStart [])).on m = _
    rw [Handler.runPromptly, on_withFrame, Script.on_inScope]
    exact congrArg (fun x => (x.1, x.2.setStack x.2.stack.pop)) ha'
  rw [hr, hr']
  exact ⟨⟨rfl, hw⟩, rfl, rfl⟩

end Tardy

end PrimScript
