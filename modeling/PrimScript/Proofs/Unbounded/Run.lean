import PrimScript.Proofs.Unbounded.Stmt

/-! Every run of a script comes to its end.  Calls do by induction on how many more of them the limit allows
inside of each other; below a call the counters do the rest. -/

namespace PrimScript

open Eval

namespace Unbounded

variable {d : Nat} {c : Context} {s : Scope}

theorem follows_result (returns : Option ValueType) (returned : Option Value) :
    Follows d (fun _ => Runs.result returns returned) (match returns, returned with
      | some t, some v => pure (v.coerce t)
      | some t, none => pure (.zero t)
      | none, _ => pure (.integer 0)) := by
  cases returns with
  | none => exact .pure _
  | some t =>
    cases returned with
    | none => exact .pure _
    | some v => exact .pure _

theorem follows_act (h : Matches d c s) (f : Function) :
    Follows d (fun n => (c.runs n).act f) (f.act s) := by
  have hresult := follows_result (d := d) f.returns
  rw [Function.act]
  apply (follows_runBody h f.body).bind
  intro flow
  cases flow with
  | «return» v => exact hresult v
  | state target =>
    have hr : Follows d (fun _ => .of (Eval.request target)) (Eval.request target) :=
      fun _ hm => ⟨⟨0, fun _ _ => rfl⟩, hm⟩
    exact hr.bind fun _ => hresult none
  | normal => exact hresult none
  | «break» => exact hresult none
  | «continue» => exact hresult none
  | jump label => exact hresult none

theorem Follows.inFrame {α : Type} {f : Frame} {x : Nat → Act α} {y : Eval α}
    (h : Follows (d + 1) x y) : Follows d (fun k => (x k).inFrame f) (withFrame f y) := by
  intro m hm
  obtain ⟨⟨n, hx⟩, hd⟩ := h (m.setStack (m.stack.push f)) (congrArg (· + 1) hm)
  refine ⟨⟨n, fun k hk => ?_⟩, ?_⟩
  · change (x k (m.setStack (m.stack.push f)) >>= _) = _
    rw [hx k hk]
    rfl
  · rw [on_withFrame]
    exact (CallStack.depth_pop _).trans (by rw [hd]; rfl)

theorem matches_ofScript (script : Script) {settings : Settings} (detected : List Entity)
    (hcap : settings.loopCap < UInt64.size - 1) {n d : Nat} (hn : n = settings.maxCallDepth - d) :
    Matches d (.ofScript script settings detected) (.ofScript script settings detected n) := by
  have hk : (UInt64.ofNat settings.loopCap).toNat = settings.loopCap := by
    rw [UInt64.toNat_ofNat']
    exact Nat.mod_eq_of_lt (Nat.lt_of_lt_of_le hcap (Nat.sub_le _ _))
  -- A call takes one frame, so what the limit leaves is one less inside of it, and never comes back up.
  induction n generalizing d with
  | zero =>
    refine ⟨rfl, hk, hcap, rfl, fun name f args => .later fun m hm => ⟨⟨0, fun k _ => ?_⟩, hm⟩⟩
    have hle : settings.maxCallDepth ≤ m.stack.depth := by omega
    exact if_pos hle
  | succ n ih =>
    refine ⟨rfl, hk, hcap, rfl, fun name f args => .later fun m hm => ?_⟩
    have hlt : ¬settings.maxCallDepth ≤ m.stack.depth := by omega
    obtain ⟨⟨k, hk⟩, hd⟩ := (follows_act (ih (d := d + 1) (by omega)) f).inFrame
      (f := (Frame.empty name f.returns).bind f.params args) m hm
    exact ⟨⟨k, fun j hj => (if_neg hlt).trans (hk j hj)⟩, hd⟩

theorem follows_bindGlobals (h : Matches d c s) (globals : List Global) :
    Follows d (fun n => (c.runs n).bindGlobals globals) (s.bindGlobals globals) := by
  induction globals with
  | nil => exact .pure ()
  | cons g rest ih =>
    rw [Scope.bindGlobals]
    have hd (v : Value) : Follows d
        (fun n => Act.of (Eval.declare g.name g.type v) >>= fun _ => (c.runs n).bindGlobals rest)
        (Eval.declare g.name g.type v >>= fun _ => s.bindGlobals rest) :=
      (Follows.yields ((stable_depth d).bodies.declared g.name g.type trivial)).bind fun _ => ih
    simp only [Runs.bindGlobals]
    cases g.init with
    | none => exact (Follows.pure _).bind hd
    | some e => exact (follows_evalAs h g.type e).bind hd

theorem follows_respond (h : Matches d c s) (f : Handler) :
    Follows d (fun n => (c.runs n).respond f) (f.act s) := by
  have ht : Follows d (fun _ => .of Eval.takeRequest) Eval.takeRequest :=
    .of (stable_depth d).takeRequest
  apply (follows_runBody h f.body).bind
  intro flow
  cases flow with
  | state target => exact .pure _
  | normal => exact ht
  | «return» v => exact ht
  | «break» => exact ht
  | «continue» => exact ht
  | jump label => exact ht

end Unbounded

open Contract

/-- A function of the library has asked for a span that is longer than any the clock can hold, and nothing
has been done since. -/
def Machine.Overdue (m : Machine) : Prop :=
  ∃ f ∈ Library.all, ∃ call w, f.run call w = (.overlong, m.world)

/-- The contract to be held up by functions of the library only. -/
def Eval.Contract.prompt : Contract where
  machine _ := True
  value _ := True
  halt x m := x = .overlong → m.Overdue
  flow _ _ := True
  target _ := True
  lost := True

theorem Eval.calls_prompt : Contract.prompt.ForCalls where
  closed := .all
  warn _ _ _ := trivial
  slot _ _ := trivial
  declare _ _ _ _ _ := trivial
  assign _ _ _ := ⟨trivial, trivial⟩
  library {f args} hf _ detected := by
    intro m _
    rw [on_callLibrary]
    rcases hr : f.run ⟨f.name, args, detected⟩ m.world.meanwhile with ⟨reply, w⟩
    cases reply with
    | overlong => exact fun _ => ⟨f, hf, _, _, hr⟩
    | value v => exact ⟨trivial, trivial⟩
    | pause span => exact ⟨trivial, trivial⟩
    | invalid reason => exact ⟨trivial, trivial⟩
    | failed reason => exact ⟨trivial, trivial⟩
  capped _ := trivial
  plain _ _ := trivial
  result _ _ := trivial
  stated _ _ := trivial
  within _ _ := trivial
  returned _ _ _ := trivial
  taken _ _ := trivial
  undefined _ _ := nofun
  lost _ _ _ _ := nofun
  request _ := trivial
  enter _ _ _ _ _ _ := trivial
  leave _ := trivial
  halted hx := hx
  tooDeep _ _ := nofun

/-- The run comes to its end when the evaluator is unfolded often enough, however much more often it is.  It
comes to `r`, and nothing holds it up but the library. -/
structure Unbounded.Ends {α : Type} (run? : Nat → Option (Except Halt α × Machine))
    (r : Except Halt α × Machine) : Prop where
  eq_some : ∃ n, ∀ k, n ≤ k → run? k = some r
  overdue : r.1 = .error .overlong → r.2.Overdue

theorem Unbounded.Ends.of_meets {α : Type} {Q : α → Machine → Prop} {act : Eval α} {m : Machine}
    {run? : Nat → Option (Except Halt α × Machine)} (h : ∃ n, ∀ k, n ≤ k → run? k = some (act.on m))
    (hx : Meets (fun _ => True) Q Contract.prompt.halt act) : Ends run? (act.on m) where
  eq_some := h
  overdue he := hx.error trivial (Prod.ext he rfl) rfl

open Unbounded

/-- Every run comes to its end when the limit on loops is one that the counters can go beyond: the giving of
values to the global variables, each handler on each event, and each call of a function, whatever the
machine. -/
theorem runs_end (script : Script) {m : Machine} (hcap : m.world.settings.loopCap < UInt64.size - 1) :
    Ends (m.bindGlobals? · script) (m.bindGlobals script) ∧
    (∀ h e, Ends (m.handle? · script h e) (m.handle script h e)) ∧
    ∀ detected name f args, Ends (m.call? · script detected name f args)
      ((script.inScope detected (·.invoke name f args)).on m) := by
  have hm {d : Nat} (detected : List Entity) :
      Matches d (.ofScript script m.world.settings detected)
        (.ofScript script m.world.settings detected (m.world.settings.maxCallDepth - d)) :=
    matches_ofScript script detected hcap rfl
  refine ⟨?_, fun h e => ?_, fun detected name f args => ?_⟩
  · refine .of_meets ?_ (calls_prompt.bindGlobals (fun _ _ _ _ _ => trivial) script.globals)
    rw [script.on_inScope]
    exact (follows_bindGlobals (hm []) script.globals { m with requested := none } rfl).1
  · refine .of_meets ?_ (calls_prompt.handle (fun _ _ _ _ _ => trivial) h (fun _ _ => trivial)
      fun _ _ => trivial)
    have hf := (follows_respond (hm (d := m.stack.depth + 1) e.detected) h).inFrame
      (f := (Frame.empty e.kind.name none).bind h.params e.args)
    have hr := (hf { m with requested := none } rfl).1
    rw [on_withFrame] at hr
    rw [h.run_eq, on_withFrame, script.on_inScope]
    exact hr
  · have hx : prompt.Yields (fun _ => True) (script.inScope detected (·.invoke name f args)) := by
      intro m _
      rw [script.on_inScope]
      generalize m.world.settings.maxCallDepth - m.stack.depth = n
      cases n with
      | zero => exact nofun
      | succ n =>
        exact (calls_prompt.yields_run (calls_prompt.calls (fun _ _ _ _ _ => trivial) _ _ n)
          (fun _ _ => trivial) name fun _ _ => trivial).mono (fun _ _ => trivial) m trivial
    refine .of_meets ?_ hx
    rw [script.on_inScope]
    exact ((hm detected).call name f args m rfl).1

def Function.restless : Function :=
  ⟨none, [], [.label "top", .while (.literal (.integer 1)) (.expr (.call "rest" [])), .jump "top"]⟩

theorem runs_end_restless :
    let script : Script := ⟨[], [("rest", .restless)], []⟩
    let m := Machine.ofWorld (.ofSettings .default (.plain []))
    m.world.settings.loopCap < UInt64.size - 1 ∧
      ∃ n, (m.call? n script [] "rest" .restless []).isSome := by
  intro script m
  have hcap : m.world.settings.loopCap < UInt64.size - 1 := by decide
  obtain ⟨n, hn⟩ := ((runs_end script hcap).2.2 [] "rest" .restless []).eq_some
  exact ⟨hcap, n, by rw [hn n (Nat.le_refl n)]; rfl⟩

end PrimScript
