import PrimScript.Proofs.Eval.Relate.Expr

/-! Statements and bodies under two ways to run functions.  What their expressions have in common they have,
and loops and blocks are passed in step. -/

namespace PrimScript

open Eval

variable {R : (α : Type) → Eval α → Eval α → Prop} {I : Machine → Machine → Prop} (h : Congruence R I)

namespace Eval.Congruence

include h

theorem stated (target : String) : R Flow (Flow.stated target) (Flow.stated target) :=
  h.basic fun m₀ _ hm => ⟨(h.stable m₀).stated target hm, fun _ _ => trivial⟩

theorem declare_then {α : Type} (name : String) (type : ValueType) (v : Value) {next next' : Eval α}
    (hn : R α next next') :
    R α (Eval.declare name type v >>= fun _ => next) (Eval.declare name type v >>= fun _ => next') :=
  h.bind (h.yields fun m₀ => (h.bodies m₀).declared name type trivial) fun _ => hn

theorem unlessRequested {next next' : Eval Flow} (hn : R Flow next next') :
    R Flow (Eval.unlessRequested next) (Eval.unlessRequested next') := by
  apply h.bind h.takeRequest
  intro r
  cases r with
  | none => exact hn
  | some target => exact h.pure _

theorem after {next next' : Eval Flow} (hn : R Flow next next') (f : Flow) :
    R Flow (Loop.after f next) (Loop.after f next') := by
  cases f with
  | normal => exact h.unlessRequested hn
  | «continue» => exact h.unlessRequested hn
  | «break» => exact h.pure _
  | «return» v => exact h.pure _
  | state target => exact h.pure _
  | jump label => exact h.pure _

end Eval.Congruence

structure Loop.Related (R : (α : Type) → Eval α → Eval α → Prop) (l l' : Loop) : Prop where
  cap : l.cap = l'.cap
  test : R Bool l.test l'.test
  body : ∀ entry, R Flow (l.body entry) (l'.body entry)
  step : R Unit l.step l'.step

namespace Loop.Related

variable {l l' : Loop} (hl : Loop.Related R l l')
include h hl

theorem passes (left : Nat) : R Flow (l.passes left) (l'.passes left) := by
  induction left with
  | zero =>
    rw [Loop.passes, Loop.passes, hl.cap]
    exact h.capped _ _
  | succ left ih =>
    apply h.bind (hl.body none)
    intro f
    apply h.after _ f
    apply h.bind hl.step
    intro _
    apply h.bind hl.test
    intro go
    cases go with
    | true => exact ih
    | false => exact h.pure _

theorem tested : R Flow l.tested l'.tested := by
  apply h.bind hl.test
  intro go
  cases go with
  | true => exact hl.cap ▸ hl.passes h l.cap
  | false => exact h.pure _

theorem resume (path : List Nat) : R Flow (l.resume path) (l'.resume path) := by
  apply h.bind (hl.body (some path))
  intro f
  apply h.after _ f
  exact h.bind hl.step fun _ => hl.tested h

end Loop.Related

structure Block.Related (R : (α : Type) → Eval α → Eval α → Prop) (b b' : Block) : Prop where
  cap : b.cap = b'.cap
  label : b.label? = b'.label?
  size : b.statements.size = b'.statements.size
  statement : ∀ (i : Nat) (hi : i < b.statements.size) (hi' : i < b'.statements.size) entry,
    R Flow (b.statements[i] entry) (b'.statements[i] entry)

namespace Block.Related

variable {b b' : Block} (hb : Block.Related R b b')
include h hb

theorem next {left pc : Nat}
    (hp : ∀ target, pc < target → R Flow (b.runFrom left target none) (b'.runFrom left target none))
    (hl : ∀ left' target, left' < left →
      R Flow (b.runFrom left' target none) (b'.runFrom left' target none)) :
    (f : Flow) → R Flow (b.next left pc f) (b'.next left pc f)
  | .normal => hp (pc + 1) (Nat.lt_succ_self pc)
  | .break => h.pure _
  | .continue => h.pure _
  | .return v => h.pure _
  | .state target => h.pure _
  | .jump label => by
    simp only [Block.next, hb.label]
    cases b'.label? label with
    | none => exact h.pure _
    | some target =>
      by_cases hlt : pc < target
      · simpa only [hlt, if_true] using hp (target + 1) (Nat.lt_succ_of_lt hlt)
      · cases left with
        | zero => simpa only [hlt, if_false, hb.cap] using h.capped _ _
        | succ left => simpa only [hlt, if_false] using hl left (target + 1) (Nat.lt_succ_self left)

theorem runFrom (left pc : Nat) :
    R Flow (b.runFrom left pc none) (b'.runFrom left pc none) ∧
      ∀ f, pc < b.statements.size → R Flow (b.runFrom left pc (some f)) (b'.runFrom left pc (some f)) := by
  induction left, pc using b.runFrom_induction with
  | step left pc ihp ihl =>
    have hsome (f : Flow) (hpc : pc < b.statements.size) :
        R Flow (b.runFrom left pc (some f)) (b'.runFrom left pc (some f)) := by
      rw [Block.runFrom_some _ hpc, Block.runFrom_some _ (hb.size ▸ hpc)]
      apply h.unlessRequested
      exact hb.next h (fun target ht => (ihp target ht hpc).1)
        (fun left' target hlt => (ihl left' target hlt).1) f
    refine ⟨?_, hsome⟩
    by_cases hpc : pc < b.statements.size
    · rw [Block.runFrom_none _ hpc, Block.runFrom_none _ (hb.size ▸ hpc)]
      exact h.bind (hb.statement pc hpc (hb.size ▸ hpc) none) fun f => hsome f hpc
    · rw [Block.runFrom_of_le _ (Nat.not_lt.1 hpc), Block.runFrom_of_le _ (hb.size ▸ Nat.not_lt.1 hpc)]
      exact h.pure _

theorem run (entry : Entry) : R Flow (b.run entry) (b'.run entry) := by
  unfold Block.run
  cases entry with
  | none => exact hb.cap ▸ (hb.runFrom h _ _).1
  | some path =>
    cases path with
    | nil => exact h.pure _
    | cons i path =>
      by_cases hi : i < b.statements.size
      · have hi' : i < b'.statements.size := hb.size ▸ hi
        simp only [hi, hi', Array.getElem?_eq_getElem, ← hb.cap]
        exact h.bind (hb.statement i hi hi' (some path)) fun f => (hb.runFrom h _ _).2 f hi
      · have hi' : ¬i < b'.statements.size := hb.size ▸ hi
        simp only [Array.getElem?_eq_none (Nat.not_lt.1 hi), Array.getElem?_eq_none (Nat.not_lt.1 hi')]
        exact h.fail _

end Block.Related

variable {s : Scope} {g : String → Function → List Value → Eval Value}

section Parts

variable (hg : s.Relates R g)
include h hg

theorem Scope.related_effects (es : List Expr) : R Unit (s.effects es) ((s.calling g).effects es) :=
  h.discard (Expr.related_evalAll h hg es)

theorem Scope.related_test (condition : Expr) : R Bool (s.test condition) ((s.calling g).test condition) :=
  h.bind (condition.related_eval h hg none) fun _ => h.pure _

theorem Expr.related_evalAs (type : ValueType) (e : Expr) :
    R Value (e.evalAs s type) (e.evalAs (s.calling g) type) :=
  h.bind (e.related_eval h hg _) fun _ => h.pure _

theorem Eval.related_returned (value : Option Expr) :
    R Flow (Eval.returned s value) (Eval.returned (s.calling g) value) := by
  cases value with
  | none => exact h.pure _
  | some e =>
    apply h.bind (h.yields fun _ => Contract.Yields.returnType)
    intro type
    exact h.bind (e.related_eval h hg type) fun v => h.pure _

theorem Scope.related_loop (condition : Option Expr) {body : Stmt} (step : List Expr)
    (hb : ∀ entry, R Flow (body.run s entry) (body.run (s.calling g) entry)) :
    Loop.Related R (s.loop condition (body.run s) step)
      ((s.calling g).loop condition (body.run (s.calling g)) step) where
  cap := rfl
  test := by
    cases condition with
    | none => exact h.pure true
    | some c => exact s.related_test h hg c
  body := hb
  step := s.related_effects h hg step

omit hg in
theorem Scope.related_block {body : List Stmt}
    (hb : ∀ t ∈ body, ∀ entry, R Flow (t.run s entry) (t.run (s.calling g) entry)) (entry : Entry) :
    R Flow ((s.block body (Stmt.runs s body)).run entry)
      (((s.calling g).block body (Stmt.runs (s.calling g) body)).run entry) := by
  have hblock : Block.Related R (s.block body (Stmt.runs s body))
      ((s.calling g).block body (Stmt.runs (s.calling g) body)) :=
    { cap := rfl
      label := rfl
      size := by rw [s.size_block, Scope.size_block]
      statement := fun i hi hi' entry => by
        have hlt : i < body.length := s.size_block body ▸ hi
        have ht := List.getElem?_eq_getElem hlt
        rw [s.getElem_block ht, Scope.getElem_block _ ht]
        exact hb _ (List.getElem_mem hlt) entry }
  exact hblock.run h entry

end Parts

mutual

theorem Stmt.related_run (h : Congruence R I) (hg : s.Relates R g) :
    (t : Stmt) → ∀ entry, R Flow (t.run s entry) (t.run (s.calling g) entry)
  | .declare name type none, none => by
    rw [Stmt.run, Stmt.run]
    exact h.bind (h.pure _) fun v => h.declare_then name type v (h.pure _)
  | .declare name type (some e), none => by
    rw [Stmt.run, Stmt.run]
    exact h.bind (e.related_evalAs h hg type) fun v => h.declare_then name type v (h.pure _)
  | .assign target op value, none => by
    rw [Stmt.run, Stmt.run]
    exact h.discard_then (Expr.related_eval h hg none _) (h.pure _)
  | .expr e, none => by
    rw [Stmt.run, Stmt.run]
    exact h.discard_then (e.related_eval h hg none) (h.pure _)
  | .ite condition yes none, none => by
    rw [Stmt.run, Stmt.run]
    apply h.bind (s.related_test h hg condition)
    intro go
    cases go with
    | true => exact yes.related_run h hg none
    | false => exact h.pure _
  | .ite condition yes (some no), none => by
    rw [Stmt.run, Stmt.run]
    apply h.bind (s.related_test h hg condition)
    intro go
    cases go with
    | true => exact yes.related_run h hg none
    | false => exact no.related_run h hg none
  | .ite _ yes none, some (0 :: path) | .ite _ yes (some _), some (0 :: path) => by
    rw [Stmt.run, Stmt.run]
    exact yes.related_run h hg _
  | .ite _ _ (some no), some (1 :: path) => by
    rw [Stmt.run, Stmt.run]
    exact no.related_run h hg _
  | .ite _ _ none, some [] | .ite _ _ none, some ((_ + 1) :: _) | .ite _ _ (some _), some []
  | .ite _ _ (some _), some ((_ + 2) :: _) => by
    simpa [Stmt.run] using h.fail .lostBranch
  | .while condition body, none => by
    rw [Stmt.run, Stmt.run]
    exact (s.related_loop h hg (some condition) [] (body.related_run h hg)).tested h
  | .doWhile body condition, none => by
    rw [Stmt.run, Stmt.run]
    exact (s.related_loop h hg (some condition) [] (body.related_run h hg)).passes h _
  | .for init condition step body, none => by
    rw [Stmt.run, Stmt.run]
    apply h.bind (s.related_effects h hg init)
    exact fun _ => (s.related_loop h hg condition step (body.related_run h hg)).tested h
  | .while condition body, some path => by
    rw [Stmt.run, Stmt.run]
    exact (s.related_loop h hg (some condition) [] (body.related_run h hg)).resume h _
  | .doWhile body condition, some path => by
    rw [Stmt.run, Stmt.run]
    exact (s.related_loop h hg (some condition) [] (body.related_run h hg)).resume h _
  | .for init condition step body, some path => by
    rw [Stmt.run, Stmt.run]
    exact (s.related_loop h hg condition step (body.related_run h hg)).resume h _
  | .return value, none => by
    rw [Stmt.run, Stmt.run]
    exact Eval.related_returned h hg value
  | .state target, none => by
    rw [Stmt.run, Stmt.run]
    exact h.stated target
  | .block body, entry => by
    rw [Stmt.run, Stmt.run]
    exact s.related_block h (Stmt.related_runs h hg body) entry
  | .jump _, none | .break, none | .continue, none | .label _, _ | .empty, _ | .declare _ _ _, some _
  | .assign _ _ _, some _ | .expr _, some _ | .return _, some _ | .state _, some _ | .jump _, some _
  | .break, some _ | .continue, some _ => by
    simpa [Stmt.run] using h.pure _

theorem Stmt.related_runs (h : Congruence R I) (hg : s.Relates R g) : (ts : List Stmt) →
    ∀ t ∈ ts, ∀ entry, R Flow (t.run s entry) (t.run (s.calling g) entry)
  | [] => by simp
  | t :: ts => List.forall_mem_cons.2 ⟨t.related_run h hg, Stmt.related_runs h hg ts⟩

end

variable (hg : s.Relates R g)
include h hg

theorem Scope.related_afterJumps (body : List Stmt) (left : Nat) (f : Flow) :
    R Flow (s.afterJumps body (s.block body (Stmt.runs s body)) left f)
      ((s.calling g).afterJumps body ((s.calling g).block body (Stmt.runs (s.calling g) body)) left f) := by
  induction left generalizing f with
  | zero =>
    unfold Scope.afterJumps
    cases f with
    | jump label =>
      dsimp only
      cases pathIn? label 0 body with
      | none => exact h.fail _
      | some path => exact h.capped _ _
    | _ => exact h.pure _
  | succ left ih =>
    unfold Scope.afterJumps
    cases f with
    | jump label =>
      dsimp only
      cases pathIn? label 0 body with
      | none => exact h.fail _
      | some path => exact h.bind (s.related_block h (Stmt.related_runs h hg body) _) ih
    | _ => exact h.pure _

theorem Scope.related_runBody (body : List Stmt) : R Flow (s.runBody body) ((s.calling g).runBody body) :=
  h.bind (s.related_block h (Stmt.related_runs h hg body) none)
    (s.related_afterJumps h hg body s.loopCap)

theorem Scope.related_bindGlobals (globals : List Global) :
    R Unit (s.bindGlobals globals) ((s.calling g).bindGlobals globals) := by
  induction globals with
  | nil => exact h.pure ()
  | cons v rest ih =>
    rw [Scope.bindGlobals, Scope.bindGlobals]
    cases v.init with
    | none => exact h.bind (h.pure _) fun x => h.declare_then v.name v.type x ih
    | some e => exact h.bind (e.related_evalAs h hg v.type) fun x => h.declare_then v.name v.type x ih

end PrimScript
