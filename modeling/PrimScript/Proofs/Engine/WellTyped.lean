import PrimScript.Proofs.Engine.Frames
import PrimScript.Proofs.Eval.WellTyped

/-! Well-typed call stacks along a course, and the values that are met there. -/

namespace PrimScript

open Eval

theorem World.Expected.wellFormed {e : Event} (h : Expected Event.Ordinary e) :
    ∀ v ∈ e.args, v.WellFormed := by
  rcases h with h | rfl
  · exact h.args
  · simp [Event.entry, Event.ofKind]

theorem Machine.carried_wellTyped (settings : Settings) :
    Carried Event.Ordinary settings WellTyped where
  world _ h := ⟨h.stack, h.past⟩
  bindGlobals {m} script _ h :=
    (framed_wellTyped.bindGlobals script script.globals { m with requested := none }
      ⟨h.stack, h.past⟩).1
  handle {m _} script f _ he h :=
    (framed_wellTyped.handle script f he.wellFormed { m with requested := none }
      ⟨h.stack, h.past⟩).1

variable {s : Scope}

theorem Expr.ensures_call {name : String} {f : Function} (hf : s.functions.find? name = some f)
    (hs : s.Keeps Machine.WellTyped Value.WellFormed)
    (hi : ∀ args, (∀ v ∈ args, v.WellFormed) →
      Ensures Machine.WellTyped (fun v => v.WellFormed ∧ v.type = resultType f.returns)
        (s.invoke name f args)) (args : List Expr) (hint : Option ValueType) :
    Ensures Machine.WellTyped (fun v => v.WellFormed ∧ v.type = resultType f.returns)
      ((Expr.call name args).eval s hint) := by
  have h := framed_wellTyped.toStable.bodies.toForExprs
  refine ensures_iff_meets.2 (Expr.yields_call h (Scope.keeps_iff_calls.1 hs) hf ?_ args hint)
  exact fun values hvalues => ensures_iff_meets.1 (hi values hvalues)

theorem Expr.ensures_callLibrary {name : String} {f : LibraryFunction}
    (hn : s.functions.find? name = none) (hf : Library.find? name = some f)
    (hs : s.Keeps Machine.WellTyped Value.WellFormed) (args : List Expr)
    (hint : Option ValueType) :
    Ensures Machine.WellTyped (fun v => v.WellFormed ∧ v.type = resultType f.returns)
      ((Expr.call name args).eval s hint) := by
  have h := framed_wellTyped.toStable
  have hl (values : List Value) (hvalues : ∀ v ∈ values, v.WellFormed) :
      Ensures Machine.WellTyped (fun v => v.WellFormed ∧ v.type = resultType f.returns)
        (callLibrary f values s.detected) := by
    intro m hm
    obtain ⟨hm', hv⟩ := h.library (List.mem_of_find?_eq_some hf) hvalues s.detected m hm
    exact ⟨hm', fun v hr => ⟨hv v hr, type_of_on_callLibrary hr⟩⟩
  exact ensures_iff_meets.2 <| Expr.yields_callLibrary h.bodies.toForExprs
    (Scope.keeps_iff_calls.1 hs) hn hf (fun values hv => ensures_iff_meets.1 (hl values hv)) args hint

theorem Scope.ensures_invoke (script : Script) (settings : Settings) (detected : List Entity)
    (n : Nat) (name : String) (f : Function) {args : List Value}
    (ha : ∀ v ∈ args, v.WellFormed) :
    Ensures Machine.WellTyped (fun v => v.WellFormed ∧ v.type = resultType f.returns)
      ((ofScript script settings detected n).invoke name f args) := by
  cases n with
  | zero => exact .fail _
  | succ n => exact framed_wellTyped.run (framed_wellTyped.keeps script settings detected n) name ha

/-- Whatever happens, all variables hold well-formed values of their types; and wherever they do,
expressions and calls come to well-formed values, calls to values of the type of the function. -/
theorem wellTyped_kept (script : Script) (settings : Settings) :
    (∀ (around : Surroundings) (c : Course),
      Course.Reachable Event.Ordinary script settings around c → c.engine.machine.WellTyped) ∧
    ∀ (detected : List Entity) (n : Nat),
      let s := Scope.ofScript script settings detected n
      (∀ (e : Expr) hint, Ensures Machine.WellTyped Value.WellFormed (e.eval s hint)) ∧
      (∀ (t : Stmt) entry,
        Ensures Machine.WellTyped (Flow.Returns Value.WellFormed) (t.run s entry)) ∧
      (∀ name f args hint, script.functions.find? name = some f →
        Ensures Machine.WellTyped (fun v => v.WellFormed ∧ v.type = resultType f.returns)
          ((Expr.call name args).eval s hint)) ∧
      ∀ name f args hint, script.functions.find? name = none → Library.find? name = some f →
        Ensures Machine.WellTyped (fun v => v.WellFormed ∧ v.type = resultType f.returns)
          ((Expr.call name args).eval s hint) := by
  constructor
  · intro around c hc
    exact hc.carried (fun _ h => h.toOrdinary) (Machine.carried_wellTyped settings) (.ofWorld _)
  · intro detected n s
    have hs := framed_wellTyped.keeps script settings detected n
    have hfs : s.functions = script.functions := by cases n <;> rfl
    refine ⟨fun e hint => e.ensures_eval framed_wellTyped.toStable hs hint,
      fun t entry => t.ensures_run framed_wellTyped.toStable hs entry, ?_, ?_⟩
    · intro name f args hint hf
      exact Expr.ensures_call (hfs ▸ hf) hs
        (fun _ => Scope.ensures_invoke script settings detected n name f) args hint
    · intro name f args hint hn hf
      exact Expr.ensures_callLibrary (hfs ▸ hn) hf hs args hint

end PrimScript
