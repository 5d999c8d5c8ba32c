import PrimScript.Proofs.Eval.Once
import PrimScript.Proofs.Globals.Undisturbed

/-! Initial values of global variables.  They are bound in their order, and the functions that are called for
them run as they do on their own, as long as none is at work once a state has been asked for.  Otherwise the
request ends a body that had nothing to do with it. -/

namespace PrimScript

open Eval Machine

def Global.value (s : Scope) (v : Global) : Eval Value :=
  match v.init with
  | some e => e.evalAs s v.type
  | none => pure (.zero v.type)

inductive Scope.Binds (s : Scope) : List Global → Machine → Except Halt Unit → Machine → Prop
  | nil (m : Machine) : Binds s [] m (.ok ()) m
  | halt {v : Global} {rest : List Global} {m n : Machine} {h : Halt} :
    (v.value s).on m = (.error h, n) → Binds s (v :: rest) m (.error h) n
  | cons {v : Global} {rest : List Global} {m k n : Machine} {x : Value} {r : Except Halt Unit} :
    (v.value s).on m = (.ok x, k) →
    Binds s rest (k.setStack { k.stack with globals := k.stack.globals.declare v.name v.type x }) r n →
    Binds s (v :: rest) m r n

namespace Scope

theorem bindGlobals_cons (s : Scope) (v : Global) (rest : List Global) :
    s.bindGlobals (v :: rest) = v.value s >>= fun x =>
      Eval.declare v.name v.type x >>= fun _ => s.bindGlobals rest := by
  rw [bindGlobals, Global.value]
  cases v.init <;> rfl

variable {s : Scope} {g : String → Function → List Value → Eval Value}
  (hg : ∀ name f args, s.functions.find? name = some f → Unless Value (s.invoke name f args) (g name f args))
include hg

theorem unless_value (v : Global) : Unless Value (v.value s) (v.value (s.calling g)) := by
  unfold Global.value
  cases v.init with
  | none => exact congruence_unless.pure _
  | some e => exact e.related_evalAs congruence_unless hg v.type

theorem binds_of_undisturbed (globals : List Global) {m : Machine} (hm : m.stack.frames = [])
    (hc : Undisturbed m ((s.bindGlobals globals).on m).2) :
    (s.calling g).Binds globals m ((s.bindGlobals globals).on m).1 ((s.bindGlobals globals).on m).2 := by
  induction globals generalizing m with
  | nil => exact .nil m
  | cons v rest ih =>
    obtain ⟨hd, ht, hr⟩ := unless_value hg v m
    rw [bindGlobals_cons, on_bind] at hc ⊢
    rcases hv : (v.value s).on m with ⟨x | x, k⟩
    · rw [hv] at hd ht hr hc
      exact .halt (hr (.inl hm) hc).1
    · rw [hv] at hd ht hr hc
      let k' := k.setStack (k.stack.declare v.name v.type x)
      have hk : k.stack.frames = [] := List.length_eq_zero_iff.1 (hd.trans (congrArg List.length hm))
      have hk' : k.stack.declare v.name v.type x =
          { k.stack with globals := k.stack.globals.declare v.name v.type x } := by
        rw [CallStack.declare]
        split
        · next hf =>
          rw [hk] at hf
          cases hf
        · rfl
      have hrest := (related_bindGlobals congruence_unless hg rest k').2.1
      obtain ⟨hfirst, hsecond⟩ := hc.split ht ((Traced.setStack k _).trans hrest)
      have hlast := (hsecond.split (.setStack k _) hrest).2
      refine .cons (hr (.inl hm) hfirst).1 ?_
      rw [← hk']
      exact ih (by change (k.stack.declare _ _ _).frames = []; rw [hk']; exact hk) hlast

end Scope

theorem Machine.bindGlobals_eq {m : Machine} (hm : m.stack.frames = []) (script : Script) :
    m.bindGlobals script =
      ((Scope.ofScript script m.world.settings [] m.world.settings.maxCallDepth).bindGlobals
        script.globals).on { m with requested := none } := by
  change (script.inScope [] (·.bindGlobals script.globals)).on { m with requested := none } = _
  rw [script.on_inScope, CallStack.depth, hm]
  rfl

/-- As long as no function is at work once a state has been asked for, the global variables get the values
that their initial expressions have when every function runs on its own, to the end of its body: in there
nothing is requested that a look could find. -/
theorem Machine.bindGlobals_binds {m : Machine} {script : Script} (hm : m.stack.frames = [])
    (hc : Undisturbed { m with requested := none } (m.bindGlobals script).2) :
    (Scope.alone script m.world.settings m.world.settings.maxCallDepth).Binds script.globals
      { m with requested := none } (m.bindGlobals script).1 (m.bindGlobals script).2 ∧
    ∀ n (t : Stmt) entry (k : Machine), k.stack.frames ≠ [] → k.requested = none →
      ((t.run (Scope.alone script m.world.settings n) entry).on k).2.requested = none := by
  refine ⟨?_, fun n t entry k => Scope.requested_on_run_alone script m.world.settings n t entry⟩
  rw [bindGlobals_eq hm] at hc ⊢
  rw [Scope.alone_eq_calling]
  exact Scope.binds_of_undisturbed (fun name f args _ => Scope.unless_alone _ _ _ name f args) _ hm hc

def Function.asks : Function := ⟨some .integer, [], [.state "other"]⟩

def Function.seven : Function := ⟨some .integer, [], [.return (some (.literal (.integer 7)))]⟩

def Script.asking (globals : List Global) : Script :=
  ⟨globals, [("asks", .asks), ("seven", .seven)], []⟩

def Global.asked : Global := ⟨"asked", .integer, some (.call "asks" [])⟩

def Global.counted : Global := ⟨"counted", .integer, some (.call "seven" [])⟩

namespace Machine

variable {m : Machine}

def entered (m : Machine) (name : String) : Machine :=
  m.setStack (m.stack.push (.empty name (some .integer)))

def asked (m : Machine) : Machine :=
  (((m.entered "asks").note (.stated "other")).request "other").setStack m.stack

end Machine

section Asking

variable {s : Scope} {m : Machine}

theorem Function.on_run_of_body {f : Function} {name : String} {flow : Flow} {n : Machine}
    (h : (s.runBody f.body).on (m.setStack (m.stack.push ((Frame.empty name f.returns).bind f.params []))) =
      (.ok flow, n)) :
    (f.run s name []).on m =
      (.ok (f.result flow), (n.afterBody flow).setStack (n.afterBody flow).stack.pop) := by
  rw [run_eq, on_withFrame, on_act, h]

theorem Function.on_run_asks (h : m.requested = none) :
    (asks.run s "asks" []).on m = (.ok (.integer 0), m.asked) :=
  on_run_of_body (f := asks) (s.on_runBody_state "other" (m := m.entered "asks") h)

theorem Scope.on_runBody_return {value : Option Expr} {v : Option Value} {n : Machine}
    (h : (Eval.returned s value).on m = (.ok (.return v), n)) :
    (s.runBody [.return value]).on m = (unlessRequested (pure (.return v))).on n := by
  simp only [runBody, block, Block.run, Stmt.runs, Stmt.run, Block.runFrom_none, Block.runFrom_some,
    Block.next, List.size_toArray, List.length_cons, List.getElem_toArray, List.getElem_cons_zero,
    Nat.zero_lt_succ, on_bind, h, unlessRequested]
  -- Neither the result nor a request is a jump.
  rcases takeRequest.on n with ⟨x | _ | target, k⟩ <;> simp [afterJumps]

theorem Function.on_run_seven (h : m.requested = none) :
    (seven.run s "seven" []).on m = (.ok (.integer 7), (m.entered "seven").setStack m.stack) := by
  have hb : (s.runBody seven.body).on (m.entered "seven") =
      (.ok (.return (some (.integer 7))), m.entered "seven") :=
    (Scope.on_runBody_return rfl).trans (on_unlessRequested h)
  exact on_run_of_body hb

theorem Function.on_run_seven_some {target : String} (hd : m.stack.frames = [])
    (h : m.requested = some target) :
    (seven.run s "seven" []).on m =
      (.ok (.integer 0),
        ({ m.entered "seven" with requested := none }.request target).setStack m.stack) := by
  have hle : (m.entered "seven").stack.depth ≤ 1 := by
    change m.stack.frames.length + 1 ≤ 1
    rw [hd]
    exact Nat.le_refl 1
  have hb : (s.runBody seven.body).on (m.entered "seven") =
      (.ok (.state target), { m.entered "seven" with requested := none }) :=
    (Scope.on_runBody_return rfl).trans (on_unlessRequested_some hle h)
  exact on_run_of_body hb

theorem Global.on_value_call {v : Global} {name : String} {f : Function} {x : Value} {k : Machine}
    (hv : v.init = some (.call name [])) (hf : s.functions.find? name = some f) (hp : f.params = [])
    (h : (s.invoke name f []).on m = (.ok x, k)) : (v.value s).on m = (.ok (x.coerce v.type), k) := by
  have he : v.value s = s.invoke name f [] >>= fun x => pure (x.coerce v.type) := by
    simp [value, hv, Expr.evalAs, Expr.eval, hf, hp, Expr.evalArgs, complete]
  rw [he, on_bind_ok h, on_pure]

theorem Function.on_runAlone_of_frames_nil {f : Function} {name : String} {args : List Value} {x : Value}
    {k : Machine} (h : (f.run s name args).on { m with requested := none } = (.ok x, k))
    (hk : k.stack.frames = []) : (f.runAlone s name args).on m = (.ok x, k) := by
  rw [runAlone, on_bind, on_modify]
  dsimp only
  rw [on_bind_ok h, on_bind, on_modify, if_pos hk]
  rfl

theorem Scope.on_bindGlobals_cons {v : Global} {x : Value} {k : Machine} (h : (v.value s).on m = (.ok x, k))
    (rest : List Global) :
    (s.bindGlobals (v :: rest)).on m =
      (s.bindGlobals rest).on (k.setStack (k.stack.declare v.name v.type x)) := by
  rw [bindGlobals_cons, on_bind_ok h]
  rfl

theorem Machine.bindGlobals_binds_asking :
    let m := ofWorld (.ofSettings .default (.plain []))
    let script := Script.asking [.counted, .asked]
    let r := m.bindGlobals script
    m.stack.frames = [] ∧ Undisturbed { m with requested := none } r.2 ∧
      (Scope.alone script .default Settings.default.maxCallDepth).Binds [.counted, .asked] m r.1 r.2 := by
  intro m script r
  let s : Scope := .ofScript script .default [] 256
  let k := ((m.entered "seven").setStack m.stack).setStack (m.stack.declare "counted" .integer (.integer 7))
  have hcounted : (Global.counted.value s).on m = (.ok (.integer 7), (m.entered "seven").setStack m.stack) :=
    Global.on_value_call (x := .integer 7) rfl rfl rfl (Function.on_run_seven rfl)
  have hasked : (Global.asked.value s).on k = (.ok (.integer 0), k.asked) :=
    Global.on_value_call (x := .integer 0) rfl rfl rfl (Function.on_run_asks rfl)
  have hrun : r = (.ok (), k.asked.setStack (k.stack.declare "asked" .integer (.integer 0))) := by
    refine (bindGlobals_eq rfl script).trans ?_
    refine (Scope.on_bindGlobals_cons hcounted _).trans ?_
    exact Scope.on_bindGlobals_cons hasked _
  have hs : Since { m with requested := none }
      ([.stack (m.entered "seven").stack, .stack m.stack, .stack k.stack, .stack (k.entered "asks").stack,
        .stated "other"] ++ .request "other" ::
        [.stack k.stack, .stack (k.stack.declare "asked" .integer (.integer 0))]) r.2 := by
    rw [hrun]
    simp [Since, asked, entered, Machine.setStack, Machine.note, Machine.request, k]
  have hc : Undisturbed { m with requested := none } r.2 := by
    refine .of_request hs rfl (by simp) (by simp) fun stack hstack => ?_
    simp only [List.mem_cons, Moment.stack.injEq, List.not_mem_nil, or_false] at hstack
    rcases hstack with rfl | rfl <;> rfl
  exact ⟨rfl, hc, (bindGlobals_binds rfl hc).1⟩

/-- The function that goes over to a state is called first, and the other one does not get to give its
result. -/
theorem Machine.bindGlobals_asking :
    let m := ofWorld (.ofSettings .default (.plain []))
    let script := Script.asking [.asked, .counted]
    let r := m.bindGlobals script
    r.1 = .ok () ∧ r.2.stack.resolve "counted" = .ok (.integer 0) ∧
      ¬(Scope.alone script .default Settings.default.maxCallDepth).Binds [.asked, .counted] m r.1 r.2 := by
  intro m script r
  let s : Scope := .ofScript script .default [] 256
  let k := m.asked.setStack (m.stack.declare "asked" .integer (.integer 0))
  let n := ({ k.entered "seven" with requested := none }.request "other").setStack k.stack
  have hasked : (Global.asked.value s).on m = (.ok (.integer 0), m.asked) :=
    Global.on_value_call (x := .integer 0) rfl rfl rfl (Function.on_run_asks rfl)
  have hcounted : (Global.counted.value s).on k = (.ok (.integer 0), n) :=
    Global.on_value_call (x := .integer 0) rfl rfl rfl (Function.on_run_seven_some rfl rfl)
  have hrun : r = (.ok (), n.setStack (n.stack.declare "counted" .integer (.integer 0))) := by
    refine (bindGlobals_eq rfl script).trans ?_
    refine (Scope.on_bindGlobals_cons hasked _).trans ?_
    exact Scope.on_bindGlobals_cons hcounted _
  refine ⟨congrArg Prod.fst hrun, ?_, fun h => ?_⟩
  · rw [hrun]
    rfl
  · let s' : Scope := .alone script .default 256
    let n' := ({ k with requested := none }.entered "seven").setStack k.stack
    have hasked' : (Global.asked.value s').on m = (.ok (.integer 0), m.asked) := by
      refine Global.on_value_call (x := .integer 0) rfl rfl rfl ?_
      exact Function.on_runAlone_of_frames_nil (Function.on_run_asks rfl) rfl
    have hcounted' : (Global.counted.value s').on k = (.ok (.integer 7), n') := by
      refine Global.on_value_call (x := .integer 7) rfl rfl rfl ?_
      exact Function.on_runAlone_of_frames_nil (Function.on_run_seven rfl) rfl
    have hb : r.2.stack.resolve "counted" = .ok (.integer 7) := by
      generalize r.1 = x, r.2 = y at h
      cases h with
      | halt hv => cases hv.symm.trans hasked'
      | cons hv hrest =>
        cases hv.symm.trans hasked'
        cases hrest with
        | halt hv => cases hv.symm.trans hcounted'
        | cons hv hrest =>
          cases hv.symm.trans hcounted'
          cases hrest
          rfl
    rw [hrun] at hb
    have hb' : (.ok (.integer 0) : Except NameError Value) = .ok (.integer 7) := hb
    exact absurd hb' (by simp)

end Asking

end PrimScript
