import PrimScript.Proofs.Engine.Frames
import PrimScript.Proofs.Eval.Request

/-! What handlers ask for along a course. -/

namespace PrimScript

open Eval Machine

/-- The states that were gone over to between two machines decide what the handler asks for. -/
structure Machine.Answered (m m' : Machine) (r : Option String) : Prop where
  later : ∃ later, Since m later m'
  isSome_iff : r.isSome ↔ ∃ state, Stated m m' state
  stated : ∀ state ∈ r, Stated m m' state
  requested : m'.requested = none

/-- Where there are no frames, a handler that ends asks for a state exactly when a statement that goes over
to a state was run, in the handler or in a function; what it asks for is one of these states, and no
request is left behind.  Between the steps of the main loop there are no frames. -/
theorem requests_answered (script : Script) :
    (∀ (h : Handler) (e : Event) (m m' : Machine) (r : Option String), m.stack.frames = [] →
      m.handle script h e = (.ok r, m') → Answered m m' r) ∧
    ∀ (settings : Settings) (around : Surroundings) (c : Course),
      Course.Reachable (·.high = false) script settings around c →
        c.engine.machine.stack.frames = [] := by
  constructor
  · intro h e m m' r hm hr
    -- Handlers begin without a request, whatever the machine has.
    have hnone := (h.settled_run script e).ok (m := { m with requested := none }) ⟨hm, rfl⟩ hr
    have ht : ∀ name f, script.functions.find? name = some f →
        ∀ x ∈ targetsOfBody f.body, (Contract.owing m).target x := fun _ _ _ _ _ => trivial
    have howing := ((calls_owing m).handle ht h (fun _ _ => trivial) (e := e) (fun _ _ => trivial)).ok
        (m := { m with requested := none }) (.of_none (List.append_nil _).symm rfl) hr
    cases r with
    | none =>
      have hm' : Owing m m' := howing
      refine ⟨hm'.later, ⟨nofun, ?_⟩, nofun, hnone⟩
      rintro ⟨state, hs⟩
      rw [← hnone]
      exact hm'.isSome state hs
    | some target =>
      obtain ⟨hm', hs⟩ : Known m m' ∧ Stated m m' target := howing
      exact ⟨hm'.later, ⟨fun _ => ⟨target, hs⟩, fun _ => rfl⟩, by simpa using hs, hnone⟩
  · intro settings around c hc
    have hf := hc.carried (fun _ he => he.high) (carried_frameless _ settings) ⟨rfl, by simp [ofWorld]⟩
    exact hf.frames

def Function.leave : Function := ⟨none, [], [.state "far"]⟩

def Script.leaving : Script := ⟨[], [("leave", .leave)], []⟩

def Handler.leaver : Handler := ⟨[], [.while (.call "leave" []) .empty, .return none]⟩

def Machine.left (m : Machine) : Machine :=
  (((m.setStack (m.stack.push (.empty "leave" none))).note (.stated "far")).request "far").setStack
    m.stack

section Leaving

variable {settings : Settings} {detected : List Entity} {n : Nat} {m : Machine}

theorem Function.on_act_leave (s : Scope) (h : m.requested = none) :
    (leave.act s).on m = (.ok (.integer 0), (m.note (.stated "far")).request "far") := by
  simp [act, leave, on_bind, s.on_runBody_state "far" h, Eval.request, -bind_pure_comp]

theorem Script.on_call_leave (h : m.requested = none) :
    ((Expr.call "leave" []).eval (.ofScript leaving settings detected (n + 1)) none).on m =
      (.ok (.integer 0), m.left) := by
  have he : (Expr.call "leave" []).eval (.ofScript leaving settings detected (n + 1)) none =
      withFrame (.empty "leave" none) (Function.leave.act (.ofScript leaving settings detected n)) := by
    simp [Expr.eval, leaving, Function.leave, NameMap.find?, Expr.evalArgs, complete, Scope.ofScript,
      Function.run_eq, Frame.bind]
  have ha := Function.on_act_leave (.ofScript leaving settings detected n)
    (m := m.setStack (m.stack.push (.empty "leave" none))) h
  rw [he, on_withFrame, ha]
  rfl

theorem Script.fst_runBody_leaver (hd : m.stack.depth ≤ 1) (h : m.requested = none) :
    ((Scope.runBody (.ofScript leaving settings detected (n + 1)) Handler.leaver.body).on m).1 =
      .ok (.state "far") := by
  have hf : (Value.integer 0).truthy = false := by decide
  have hu (next : Eval Flow) := @on_unlessRequested_some next m.left "far" hd rfl
  simp [Scope.runBody, Scope.block, Handler.leaver, Block.run, Block.runFrom_none, Block.runFrom_some,
    on_bind, Stmt.runs, Stmt.run, Scope.loop, Loop.tested, Scope.test, on_call_leave h, hf, hu,
    Scope.afterJumps, -bind_pure_comp]

theorem requests_answered_leaving :
    let m := Machine.ofWorld (.ofSettings .default (.plain []))
    let r := m.handle .leaving .leaver (.ofKind .touchStart [])
    m.stack.frames = [] ∧ r.1 = .ok (some "far") ∧ Answered m r.2 (some "far") := by
  intro m r
  have hr : r.1 = .ok (some "far") := by
    change ((Handler.leaver.run .leaving (.ofKind .touchStart [])).on { m with requested := none }).1 = _
    rw [Handler.run_eq, on_withFrame, Script.on_inScope, Handler.act, on_bind]
    generalize hb : (Scope.runBody _ Handler.leaver.body).on _ = b
    have hb' : b.1 = .ok (.state "far") :=
      hb ▸ Script.fst_runBody_leaver (n := 254) (by decide) rfl
    obtain ⟨_, m'⟩ := b
    cases hb'
    rfl
  exact ⟨rfl, hr, (requests_answered .leaving).1 .leaver _ m _ _ rfl (Prod.ext hr rfl)⟩

end Leaving

end PrimScript
