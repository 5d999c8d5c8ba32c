import PrimScript.Proofs.Eval.Path
import PrimScript.Proofs.Unbounded.Expr

/-! Statements and bodies come to their end.  The counters of loops, blocks and bodies count up to the limit
where those of the evaluation count down from it; below the limit they do not overflow. -/

namespace PrimScript.Unbounded

open Eval

variable {d : Nat} {c : Context} {s : Scope}

theorem follows_unlessRequested {x : Nat → Act Flow} {y : Eval Flow} (hxy : Follows d x y) :
    Follows d (fun n => do
      match ← Act.of Eval.takeRequest with
      | some target => pure (.state target)
      | none => x n) (Eval.unlessRequested y) := by
  apply (Follows.of (stable_depth d).takeRequest).bind
  intro r
  cases r with
  | none => exact hxy
  | some target => exact .pure _

section Parts

variable (h : Matches d c s)
include h

namespace Matches

variable {left : Nat} {count : UInt64}

theorem lt_succ_iff (hk : left + count.toNat = s.loopCap) : c.loopCap < count + 1 ↔ left = 0 := by
  have hc := h.loopCap
  have hl := h.limited
  rw [UInt64.size] at hl
  rw [UInt64.lt_iff_toNat_lt, UInt64.toNat_add, UInt64.toNat_one]
  omega

theorem succ_count (hk : left + 1 + count.toNat = s.loopCap) :
    left + (count + 1).toNat = s.loopCap := by
  have hl := h.limited
  rw [UInt64.size] at hl
  rw [UInt64.toNat_add, UInt64.toNat_one]
  omega

theorem capped (what : String) :
    Follows d (fun _ => .of (Flow.capped what c.loopCap.toNat)) (Flow.capped what s.loopCap) := by
  rw [h.loopCap]
  exact .ends ((stable_depth d).bodies.cappedFlow what s.loopCap)

end Matches

theorem follows_test (condition : Expr) :
    Follows d (fun n => (c.runs n).test (some condition)) (s.test condition) :=
  (follows_eval h none condition).bind fun _ => .pure _

theorem follows_loop_test (condition : Option Expr) (body : Entry → Eval Flow) (step : List Expr) :
    Follows d (fun n => (c.runs n).test condition) (s.loop condition body step).test := by
  cases condition with
  | none => exact .pure true
  | some e => exact follows_test h e

section Loop

variable {condition : Option Expr} {step : List Expr} {body : Stmt}

theorem follows_behind {count : UInt64} {next : Eval Flow}
    (hn : Follows d (fun n => (c.runs n).loop condition step body count) next) (flow : Flow) :
    Follows d (fun n => (c.runs n).behind condition step body flow count)
      (Loop.after flow (s.effects step >>= fun _ => next)) := by
  have hstep := follows_unlessRequested ((follows_effects h step).bind fun _ => hn)
  cases flow with
  | normal => exact hstep
  | «continue» => exact hstep
  | «break» => exact .pure _
  | «return» v => exact .pure _
  | state target => exact .pure _
  | jump label => exact .pure _

variable (hb : Follows d (fun n => (c.runs n).run body) (body.run s none))
include hb

omit hb in
theorem follows_loop {left : Nat} {count : UInt64}
    (hp : Follows d (fun n => (c.runs n).passes condition step body count)
      ((s.loop condition (body.run s) step).passes left)) :
    Follows d (fun n => (c.runs n).loop condition step body count) (do
      if ← (s.loop condition (body.run s) step).test then
        (s.loop condition (body.run s) step).passes left
      else pure .normal) := by
  apply (follows_loop_test h condition (body.run s) step).bind
  intro go
  cases go with
  | true => exact hp
  | false => exact .pure _

theorem follows_passes (left : Nat) (count : UInt64) (hk : left + count.toNat = s.loopCap) :
    Follows d (fun n => (c.runs n).passes condition step body count)
      ((s.loop condition (body.run s) step).passes left) := by
  induction left generalizing count with
  | zero =>
    rw [Loop.passes]
    apply Follows.later
    simp only [Context.runs, Runs.once, Runs.passesOnce, if_pos ((h.lt_succ_iff hk).2 rfl)]
    exact h.capped "loop"
  | succ left ih =>
    rw [Loop.passes]
    -- The pass may take any number of unfoldings; that its own is one more does not matter.
    apply Follows.later
    simp only [Context.runs, Runs.once, Runs.passesOnce, h.lt_succ_iff hk, Nat.succ_ne_zero, if_false]
    apply hb.bind
    intro flow
    exact follows_behind h (follows_loop h (ih _ (h.succ_count hk))) flow

theorem follows_tested :
    Follows d (fun n => (c.runs n).loop condition step body 0) (s.loop condition (body.run s) step).tested :=
  follows_loop h (follows_passes h hb _ _ rfl)

theorem follows_resumed {x : Nat → Act Flow} {path : List Nat}
    (hx : Follows d x (body.run s (some path))) :
    Follows d (fun n => x n >>= fun flow => (c.runs n).behind condition step body flow 0)
      ((s.loop condition (body.run s) step).resume path) :=
  hx.bind (follows_behind h (follows_tested h hb))

end Loop

section Block

variable {body : List Stmt} (hb : ∀ t ∈ body, Follows d (fun n => (c.runs n).run t) (t.run s none))
include hb

/-- As many jumps back are left as the counter may still count. -/
theorem follows_block (left pc : Nat) (count : UInt64) (hk : left + count.toNat = s.loopCap) :
    Follows d (fun n => (c.runs n).block body pc count)
        ((s.block body (Stmt.runs s body)).runFrom left pc none) ∧
      ∀ flow, pc < body.length → Follows d (fun n => (c.runs n).next c body pc flow count)
        ((s.block body (Stmt.runs s body)).runFrom left pc (some flow)) := by
  -- Jumps ahead and the next statement leave the counter as it is and get on in the block; jumps back
  -- use up one of those that are left.
  induction left, pc using (s.block body (Stmt.runs s body)).runFrom_induction
      generalizing count with
  | step left pc ihp ihl =>
    have hnext (flow : Flow) (hpc : pc < body.length) :
        Follows d (fun n => (c.runs n).next c body pc flow count)
          ((s.block body (Stmt.runs s body)).runFrom left pc (some flow)) := by
      have hsize : pc < (s.block body (Stmt.runs s body)).statements.size :=
        s.size_block body ▸ hpc
      rw [Block.runFrom_some _ hsize]
      apply follows_unlessRequested
      cases flow with
      | normal => exact (ihp (pc + 1) (by omega) hsize count hk).1
      | «break» => exact .pure _
      | «continue» => exact .pure _
      | «return» v => exact .pure _
      | state target => exact .pure _
      | jump label =>
        have hl : (s.block body (Stmt.runs s body)).label? label = labelIndex? body label := rfl
        simp only [Block.next, hl]
        cases labelIndex? body label with
        | none => exact .pure _
        | some target =>
          by_cases hlt : pc < target
          · simpa [hlt] using (ihp (target + 1) (by omega) hsize count hk).1
          · cases left with
            | zero =>
              simp only [hlt, if_false, (h.lt_succ_iff hk).2, if_true]
              exact h.capped _
            | succ left =>
              simpa [hlt, h.lt_succ_iff hk] using
                (ihl left (target + 1) (by omega) (count + 1) (h.succ_count hk)).1
    refine ⟨.later ?_, hnext⟩
    simp only [Context.runs, Runs.once, Runs.blockOnce]
    cases ht : body[pc]? with
    | none =>
      rw [Block.runFrom_of_le]
      · exact .pure _
      · rw [s.size_block]
        exact List.getElem?_eq_none_iff.1 ht
    | some t =>
      have hpc := (List.getElem?_eq_some_iff.1 ht).1
      rw [Block.runFrom_none _ (s.size_block body ▸ hpc), s.getElem_block ht]
      exact (hb t (List.mem_of_getElem? ht)).bind fun flow => hnext flow hpc

theorem follows_resumeBlock
    (he : ∀ t ∈ body, ∀ path, Follows d (fun n => (c.runs n).resume t path) (t.run s (some path)))
    (path : List Nat) :
    Follows d (fun n => (c.runs n).resumeBlock c body path)
      ((s.block body (Stmt.runs s body)).run (some path)) := by
  cases path with
  | nil => exact .pure _
  | cons i path =>
    rw [Block.run]
    simp only [Runs.resumeBlock]
    cases ht : body[i]? with
    | none =>
      rw [Array.getElem?_eq_none]
      · exact .fail _
      · rw [s.size_block]
        exact List.getElem?_eq_none_iff.1 ht
    | some t =>
      have hi := (List.getElem?_eq_some_iff.1 ht).1
      rw [Array.getElem?_eq_getElem (s.size_block body ▸ hi), s.getElem_block ht]
      exact (he t (List.mem_of_getElem? ht) path).bind fun flow =>
        (follows_block h hb _ _ 0 rfl).2 flow hi

end Block

end Parts

mutual

theorem follows_run (h : Matches d c s) : (t : Stmt) → Follows d (fun n => (c.runs n).run t) (t.run s none)
  | .declare name type none => by
    apply Follows.later
    rw [Stmt.run, pure_bind]
    exact (Follows.yields ((stable_depth d).bodies.declared name type trivial)).bind
      fun _ => .pure _
  | .declare name type (some e) => by
    apply Follows.later
    rw [Stmt.run]
    apply (follows_evalAs h type e).bind
    intro v
    exact (Follows.yields ((stable_depth d).bodies.declared name type trivial)).bind
      fun _ => .pure _
  | .assign target op value => by
    apply Follows.later
    rw [Stmt.run]
    exact (follows_eval h none _).discard_then (.pure _)
  | .expr e => by
    apply Follows.later
    rw [Stmt.run]
    exact (follows_eval h none e).discard_then (.pure _)
  | .ite condition yes none => by
    apply Follows.later
    rw [Stmt.run]
    apply (follows_test h condition).bind
    intro go
    cases go with
    | true => exact follows_run h yes
    | false => exact .pure _
  | .ite condition yes (some no) => by
    apply Follows.later
    rw [Stmt.run]
    apply (follows_test h condition).bind
    intro go
    cases go with
    | true => exact follows_run h yes
    | false => exact follows_run h no
  | .while condition body => by
    apply Follows.later
    rw [Stmt.run]
    exact follows_tested h (follows_run h body)
  | .doWhile body condition => by
    apply Follows.later
    rw [Stmt.run]
    exact follows_passes h (follows_run h body) _ _ rfl
  | .for init condition step body => by
    apply Follows.later
    rw [Stmt.run]
    exact (follows_effects h init).bind fun _ => follows_tested h (follows_run h body)
  | .return none => by
    apply Follows.later
    rw [Stmt.run]
    exact .pure _
  | .return (some e) => by
    apply Follows.later
    rw [Stmt.run]
    apply (Follows.yields Contract.Yields.returnType).bind
    intro type
    exact (follows_eval h type e).bind fun v => .pure _
  | .state target => by
    apply Follows.later
    rw [Stmt.run]
    exact fun _ hm => ⟨⟨0, fun _ _ => rfl⟩, hm⟩
  | .jump name => by
    apply Follows.later
    rw [Stmt.run]
    exact .pure _
  | .block body => by
    apply Follows.later
    rw [Stmt.run]
    exact (follows_block h (follows_runs h body) _ _ 0 rfl).1
  | .break => by
    apply Follows.later
    rw [Stmt.run]
    exact .pure _
  | .continue => by
    apply Follows.later
    rw [Stmt.run]
    exact .pure _
  | .label _ | .empty => by
    simpa [Stmt.run] using Follows.later (Follows.pure Flow.normal)

theorem follows_runs (h : Matches d c s) : (ts : List Stmt) → ∀ t ∈ ts,
    Follows d (fun n => (c.runs n).run t) (t.run s none)
  | [] => by simp
  | t :: ts => List.forall_mem_cons.2 ⟨follows_run h t, follows_runs h ts⟩

end

mutual

theorem follows_resume (h : Matches d c s) :
    (t : Stmt) → ∀ path, Follows d (fun n => (c.runs n).resume t path) (t.run s (some path))
  | .block body, path => by
    apply Follows.later
    rw [Stmt.run]
    exact follows_resumeBlock h (follows_runs h body) (follows_resumes h body) path
  | .ite _ yes none, 0 :: path | .ite _ yes (some _), 0 :: path => by
    apply Follows.later
    rw [Stmt.run]
    exact follows_resume h yes path
  | .ite _ _ (some no), 1 :: path => by
    apply Follows.later
    rw [Stmt.run]
    exact follows_resume h no path
  | .ite _ _ none, [] | .ite _ _ none, 1 :: _ | .ite _ _ none, (_ + 2) :: _
  | .ite _ _ (some _), [] | .ite _ _ (some _), (_ + 2) :: _ => by
    simpa [Stmt.run] using Follows.later (Follows.fail .lostBranch)
  | .while condition body, path => by
    apply Follows.later
    rw [Stmt.run]
    exact follows_resumed h (follows_run h body) (follows_resume h body path.tail)
  | .doWhile body condition, path => by
    apply Follows.later
    rw [Stmt.run]
    exact follows_resumed h (follows_run h body) (follows_resume h body path.tail)
  | .for _ condition step body, path => by
    apply Follows.later
    rw [Stmt.run]
    exact follows_resumed h (follows_run h body) (follows_resume h body path.tail)
  | .label _, _ | .empty, _ | .declare _ _ _, _ | .assign _ _ _, _ | .expr _, _ | .return _, _
  | .state _, _ | .jump _, _ | .break, _ | .continue, _ => by
    simpa [Stmt.run] using Follows.later (Follows.pure Flow.normal)

theorem follows_resumes (h : Matches d c s) :
    (ts : List Stmt) → ∀ t ∈ ts, ∀ path,
      Follows d (fun n => (c.runs n).resume t path) (t.run s (some path))
  | [] => by simp
  | t :: ts => List.forall_mem_cons.2 ⟨follows_resume h t, follows_resumes h ts⟩

end

variable (h : Matches d c s)
include h

theorem follows_jumps (body : List Stmt) (left : Nat) (count : UInt64) (flow : Flow)
    (hk : left + count.toNat = s.loopCap) :
    Follows d (fun n => (c.runs n).jumps body count flow)
      (s.afterJumps body (s.block body (Stmt.runs s body)) left flow) := by
  induction left generalizing count flow with
  | zero =>
    apply Follows.later
    unfold Scope.afterJumps
    cases flow with
    | jump label =>
      simp only [Context.runs, Runs.once, Runs.jumpsOnce, if_pos ((h.lt_succ_iff hk).2 rfl)]
      cases pathIn? label 0 body with
      | none => exact .fail _
      | some path => exact h.capped _
    | _ => exact .pure _
  | succ left ih =>
    apply Follows.later
    unfold Scope.afterJumps
    cases flow with
    | jump label =>
      simp only [Context.runs, Runs.once, Runs.jumpsOnce, h.lt_succ_iff hk, Nat.succ_ne_zero, if_false]
      cases pathIn? label 0 body with
      | none => exact .fail _
      | some path =>
        exact (follows_resumeBlock h (follows_runs h body) (follows_resumes h body) path).bind
          fun flow => ih _ flow (h.succ_count hk)
    | _ => exact .pure _

theorem follows_runBody (body : List Stmt) :
    Follows d (fun n => (c.runs n).runBody body) (s.runBody body) :=
  (follows_block h (follows_runs h body) _ _ 0 rfl).1.bind fun flow =>
    follows_jumps h body _ 0 flow rfl

end PrimScript.Unbounded
