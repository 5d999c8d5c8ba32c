import PrimScript.Proofs.Eval.Frames
import PrimScript.Proofs.Eval.Relate.Stmt

/-! Functions that run on their own.  They are run in their frames as ever, but what a function asks for is
kept from the functions around it: none of them finds a request that it could take note of. -/

namespace PrimScript

open Eval

/-- Runs a function on its own: it does not see what was asked for before, and those it is called by do not
see what it asks for. -/
def Function.runAlone (f : Function) (s : Scope) (name : String) (args : List Value) : Eval Value := do
  modify fun m => { m with requested := none }
  let v ← f.run s name args
  modify fun m => if m.stack.frames = [] then m else { m with requested := none }
  pure v

/-- The scope of initial values in which every function runs on its own, up to `depth` deep. -/
def Scope.alone (script : Script) (settings : Settings) : (depth : Nat) → Scope
  | 0 => ofScript script settings [] 0
  | depth + 1 => (ofScript script settings [] (depth + 1)).calling fun name f args =>
    f.runAlone (alone script settings depth) name args

theorem Scope.alone_eq_calling (script : Script) (settings : Settings) (n : Nat) :
    alone script settings n = (ofScript script settings [] n).calling (alone script settings n).invoke := by
  cases n <;> rfl

namespace Machine

theorem forget_eq {m : Machine} (h : m.requested = none) : { m with requested := none } = m := by
  cases m
  cases h
  rfl

end Machine

def Function.result (f : Function) (flow : Flow) : Value :=
  match f.returns, flow with
  | some t, .return (some v) => v.coerce t
  | some t, _ => .zero t
  | none, _ => .integer 0

def Machine.afterBody (m : Machine) : Flow → Machine
  | .state target => m.request target
  | _ => m

theorem Function.on_act (f : Function) (s : Scope) (m : Machine) :
    (f.act s).on m =
      match (s.runBody f.body).on m with
      | (.error h, n) => (.error h, n)
      | (.ok flow, n) => (.ok (f.result flow), n.afterBody flow) := by
  obtain ⟨returns, params, body⟩ := f
  rw [act, on_bind]
  rcases (s.runBody body).on m with ⟨h | flow, n⟩
  · rfl
  · cases flow with
    | «return» v => cases v <;> cases returns <;> rfl
    | state target => cases returns <;> rfl
    | normal => cases returns <;> rfl
    | «break» => cases returns <;> rfl
    | «continue» => cases returns <;> rfl
    | jump label => cases returns <;> rfl

namespace Machine

theorem afterBody_eq (m : Machine) (flow : Flow) :
    m.afterBody flow = m ∨ ∃ target, m.afterBody flow = m.request target := by
  cases flow with
  | state target => exact .inr ⟨target, rfl⟩
  | normal => exact .inl rfl
  | «break» => exact .inl rfl
  | «continue» => exact .inl rfl
  | «return» v => exact .inl rfl
  | jump label => exact .inl rfl

end Machine

open Machine

theorem Eval.stable_unrequested (d : Nat) :
    Stable (fun m => m.stack.depth = d ∧ m.requested = none) fun _ => True where
  closed := .all
  warn _ _ hm := hm
  stated _ hm := hm
  capped hm := hm
  taken hm := ⟨hm.1, rfl⟩
  slot _ _ := trivial
  declare name type _ hm _ := ⟨(CallStack.depth_declare _ name type _).trans hm.1, hm.2⟩
  assign hm _ hs := ⟨trivial, (CallStack.frames_of_assign hs).1.trans hm.1, hm.2⟩
  library _ _ _ := by
    intro m hm
    rw [on_callLibrary_snd]
    exact ⟨hm, fun _ _ => trivial⟩

theorem Function.ensures_runAlone (f : Function) {s : Scope} {d : Nat} (hd : 0 < d)
    (hs : s.Keeps (fun m => m.stack.depth = d + 1 ∧ m.requested = none) fun _ => True) (name : String)
    (args : List Value) :
    Ensures (fun m => m.stack.depth = d ∧ m.requested = none) (fun _ => True) (f.runAlone s name args) := by
  rintro m ⟨hm, hr⟩
  let k := m.setStack (m.stack.push ((Frame.empty name f.returns).bind f.params args))
  have hb := (s.ensures_runBody (stable_unrequested (d + 1)) hs f.body k ⟨congrArg (· + 1) hm, hr⟩).1
  have hrun : (f.run s name args).on m =
      (((f.act s).on k).1, ((f.act s).on k).2.setStack ((f.act s).on k).2.stack.pop) := rfl
  have hpop {n : Machine} (hn : n.stack.depth = d + 1) : (n.setStack n.stack.pop).stack.depth = d :=
    (CallStack.depth_pop _).trans (by rw [hn]; rfl)
  refine ⟨?_, fun _ _ => trivial⟩
  rw [runAlone, on_bind, on_modify]
  dsimp only
  rw [forget_eq hr, on_bind, hrun, f.on_act]
  generalize (s.runBody f.body).on k = r at hb
  rcases r with ⟨x | flow, n⟩
  · exact ⟨hpop hb.1, hb.2⟩
  · have ha : (n.afterBody flow).stack.depth = d + 1 := by
      rcases n.afterBody_eq flow with h | ⟨target, h⟩ <;> rw [h] <;> exact hb.1
    have hf : (n.afterBody flow).stack.pop.frames ≠ [] := List.length_pos_iff.1 (by
      have hlt := hpop ha
      rw [← hlt] at hd
      exact hd)
    have hif : (if (n.afterBody flow).stack.pop.frames = [] then
          (n.afterBody flow).setStack (n.afterBody flow).stack.pop
        else { (n.afterBody flow).setStack (n.afterBody flow).stack.pop with requested := none }) =
        { (n.afterBody flow).setStack (n.afterBody flow).stack.pop with requested := none } := if_neg hf
    exact ⟨(congrArg (·.stack.depth) hif).trans (hpop ha), congrArg (·.requested) hif⟩

namespace Scope

variable (script : Script) (settings : Settings)

theorem keeps_alone (n : Nat) {d : Nat} (hd : 0 < d) :
    (alone script settings n).Keeps (fun m => m.stack.depth = d ∧ m.requested = none) fun _ => True := by
  induction n generalizing d with
  | zero =>
    intro name f args _ _
    exact .fail _
  | succ n ih =>
    intro name f args _ _
    exact f.ensures_runAlone hd (ih (Nat.succ_pos d)) name args

theorem requested_on_run_alone (n : Nat) (t : Stmt) (entry : Entry) {m : Machine}
    (hf : m.stack.frames ≠ []) (hm : m.requested = none) :
    ((t.run (alone script settings n) entry).on m).2.requested = none :=
  (t.ensures_run (stable_unrequested m.stack.depth)
    (keeps_alone script settings n (List.length_pos_iff.2 hf)) entry m ⟨rfl, hm⟩).1.2

end Scope

end PrimScript
