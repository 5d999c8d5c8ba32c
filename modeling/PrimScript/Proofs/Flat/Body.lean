import PrimScript.Proofs.Flat.Lowering

/-! The running of a body comes to what its code comes to.  A jump that leaves all blocks of the body
goes on at its label, as it does in the code. -/

namespace PrimScript

open Eval Flat Machine

variable {s : Scope} {body : List Stmt} {b : Block} {left : Nat} {label : String}

theorem Scope.afterJumps_of_ne {flow : Flow} (h : ∀ label, flow ≠ .jump label) :
    s.afterJumps body b left flow = pure flow := by
  cases flow with
  | jump label => exact (h label rfl).elim
  | normal => simp [afterJumps]
  | «break» => simp [afterJumps]
  | «continue» => simp [afterJumps]
  | «return» v => simp [afterJumps]
  | state target => simp [afterJumps]

theorem Scope.afterJumps_of_none (h : pathIn? label 0 body = none) :
    s.afterJumps body b left (.jump label) = Eval.fail (.undefinedLabel label) := by
  cases left with
  | zero => simp [afterJumps, h]
  | succ left => simp [afterJumps, h]

theorem Scope.afterJumps_zero {path : List Nat} (h : pathIn? label 0 body = some path) :
    s.afterJumps body b 0 (.jump label) = Flow.capped s!"jump to `{label}`" s.loopCap := by
  simp [afterJumps, h]

theorem Scope.afterJumps_succ {path : List Nat} (h : pathIn? label 0 body = some path) :
    s.afterJumps body b (left + 1) (.jump label) =
      b.run (some path) >>= s.afterJumps body b left := by
  simp [afterJumps, h]

namespace Flat

theorem follow_of_ended {flow : Flow} (hf : ∀ label, flow ≠ .jump label) {m m' : Machine}
    {r : Except Halt Flow} (h : ended (.ok flow) m r m') :
    follow s (program body) (Stmt.sizes body) ⟨none, none⟩ flow m r m' := by
  cases flow with
  | normal =>
    obtain ⟨rfl, rfl⟩ := h
    apply Ends.behind
    simp [program]
  | «break» => exact h
  | «continue» => exact h
  | «return» v => exact h
  | state target => exact h
  | jump label => exact (hf label rfl).elim

theorem implements_afterJumps (hs : s.Onward) (hl : (Stmt.labelsIn body).Nodup) (left : Nat)
    (flow : Flow) :
    Implements (follow s (program body) (Stmt.sizes body) ⟨none, none⟩ flow)
      (s.afterJumps body (s.block body (Stmt.runs s body)) left flow)
      fun flow => ended (.ok flow) := by
  by_cases hf : ∀ label, flow ≠ .jump label
  · rw [Scope.afterJumps_of_ne hf]
    exact (Implements.pure _ flow).before (follow_of_ended hf)
  · obtain ⟨label, rfl⟩ : ∃ label, flow = .jump label := by simpa using hf
    have hplace := isSome_place?_program body label
    cases hp : pathIn? label 0 body with
    | none =>
      rw [hp, Option.isSome_none, Option.isSome_eq_false_iff, Option.isNone_iff_eq_none] at hplace
      rw [Scope.afterJumps_of_none hp, follow, control, hplace]
      exact .fail _ _
    | some path =>
      rw [hp] at hplace
      obtain ⟨place, hplace⟩ := Option.isSome_iff_exists.1 hplace
      cases left with
      | zero =>
        rw [Scope.afterJumps_zero hp]
        exact .capped _ _ _
      | succ left =>
        have hb : (Stmt.block body).Simulated s (program body) :=
          (Stmt.block body).simulated hs (distinct_program hl)
        have he := hb.enter (codeAt_program body) (Nat.zero_add _).symm hp hplace
        rw [Stmt.run] at he
        rw [Scope.afterJumps_succ hp, follow, control, hplace]
        exact he.bind (implements_afterJumps hs hl left)

theorem implements_runBody (hs : s.Onward) (hl : (Stmt.labelsIn body).Nodup) :
    Implements (Ends s (program body) 0) (s.runBody body) fun flow => ended (.ok flow) := by
  have hb : (Stmt.block body).Simulated s (program body) :=
    (Stmt.block body).simulated hs (distinct_program hl)
  have hr := hb.run (codeAt_program body) (Nat.zero_add _).symm
  rw [Stmt.run] at hr
  exact hr.bind (implements_afterJumps hs hl s.loopCap)

/-- A calm run of a body whose labels are distinct ends as the run of its code does, and as no other
one: with the same result, the same variables, and the same effects in the same order. -/
theorem ends_program_iff (script : Script) (settings : Settings) (detected : List Entity)
    (depth : Nat) {body : List Stmt} (hl : (Stmt.labelsIn body).Nodup) {m : Machine}
    (hc : Calm m (((Scope.ofScript script settings detected depth).runBody body).on m).2)
    (r : Except Halt Flow) (m' : Machine) :
    Ends (.ofScript script settings detected depth) (program body) 0 m r m' ↔
      ((Scope.ofScript script settings detected depth).runBody body).on m = (r, m') := by
  have hi := implements_runBody (Scope.onward_ofScript script settings detected depth) hl
  have he : Ends (.ofScript script settings detected depth) (program body) 0 m
      (((Scope.ofScript script settings detected depth).runBody body).on m).1
      (((Scope.ofScript script settings detected depth).runBody body).on m).2 := by
    apply hi.runs hc
    cases (((Scope.ofScript script settings detected depth).runBody body).on m).1 with
    | ok flow => exact ⟨rfl, rfl⟩
    | error h => exact ⟨rfl, rfl⟩
  constructor
  · intro h
    obtain ⟨hr, hm⟩ := he.unique h
    exact Prod.ext hr hm
  · intro h
    rw [h] at he
    exact he

def leaps : List Stmt :=
  [.while (.literal (.integer 1)) (.jump "in"), .block [.state "far", .label "in"]]

theorem on_runBody_leaps {n : Nat} (hs : s.loopCap = n + 1) {m : Machine}
    (hm : m.requested = none) : (s.runBody leaps).on m = (.ok .normal, m) := by
  have ht : (Literal.integer 1).value.truthy = true := by decide
  simp [leaps, Scope.runBody, Scope.afterJumps, Scope.block, Scope.loop, Scope.test, on_bind,
    on_unlessRequested hm, Block.run, Block.runFrom_none, Block.runFrom_some,
    Block.runFrom_of_le, Block.next, Loop.tested, Loop.passes, Loop.after, Stmt.run, Stmt.runs,
    Stmt.path?, pathIn?, labelIndex?, List.findIdx?_cons, Expr.eval, hs, ht]

theorem ends_program_leaps :
    (Stmt.labelsIn leaps).Nodup ∧
    Calm (.ofWorld (.ofSettings .default (.plain [])))
      (((Scope.ofScript ⟨[], [], []⟩ .default [] 0).runBody leaps).on
        (.ofWorld (.ofSettings .default (.plain [])))).2 ∧
    Ends (.ofScript ⟨[], [], []⟩ .default [] 0) (program leaps) 0
      (.ofWorld (.ofSettings .default (.plain []))) (.ok .normal) (.ofWorld (.ofSettings .default (.plain []))) := by
  have hl : (Stmt.labelsIn leaps).Nodup := by simp [leaps, Stmt.labelsIn, Stmt.labels]
  have hr := on_runBody_leaps (s := .ofScript ⟨[], [], []⟩ .default [] 0) (n := 999999) rfl
    (m := .ofWorld (.ofSettings .default (.plain []))) rfl
  have hc : Calm (.ofWorld (.ofSettings .default (.plain [])))
      (((Scope.ofScript ⟨[], [], []⟩ .default [] 0).runBody leaps).on
        (.ofWorld (.ofSettings .default (.plain [])))).2 := by
    rw [hr]
    exact ⟨rfl, [], by simp, by simp⟩
  exact ⟨hl, hc, (ends_program_iff ⟨[], [], []⟩ .default [] 0 hl hc _ _).2 hr⟩

end Flat

end PrimScript
