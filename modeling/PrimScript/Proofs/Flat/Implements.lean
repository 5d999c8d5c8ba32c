import PrimScript.Proofs.Eval.Calm
import PrimScript.Proofs.Flat.Basic

/-! Flat code that does what an action does.  From `start` on the code comes to every end that it comes
to from where the action stops; this is about calm runs only.  The rules follow the constructs of
evaluation, whatever their parts are. -/

namespace PrimScript.Flat

open Eval Machine

abbrev Runs := Machine → Except Halt Flow → Machine → Prop

def ended (r : Except Halt Flow) : Runs := fun m r' m' => r' = r ∧ m' = m

variable {α β : Type} {s : Scope} {code : List Instr} {x : Exits} {start start' : Runs}

def resumed (stop : α → Runs) : Except Halt α → Runs
  | .ok a => stop a
  | .error h => ended (.error h)

def leads (s : Scope) (code : List Instr) : Control → Runs
  | .pass next => Ends s code next
  | .stop flow => ended (.ok flow)

def decided (s : Scope) (code : List Instr) (act : Eval Control) : Runs := fun m =>
  resumed (leads s code) (act.on m).1 (act.on m).2

/-- How a run goes on when a statement ends with `flow`. -/
def follow (s : Scope) (code : List Instr) (next : Nat) (x : Exits) (flow : Flow) : Runs :=
  decided s code (control code next x flow)

theorem Ends.of_step {pc : Nat} {m m' : Machine} {r : Except Halt Flow}
    (h : decided s code (step s code pc) m r m') : Ends s code pc m r m' := by
  unfold decided at h
  rcases hs : (step s code pc).on m with ⟨e | c, n⟩
  · rw [hs] at h
    obtain ⟨rfl, rfl⟩ := h
    exact .halt hs
  · rw [hs] at h
    cases c with
    | pass next => exact .pass hs h
    | stop flow =>
      obtain ⟨rfl, rfl⟩ := h
      exact .stop hs

theorem Ends.of_instr {pc : Nat} {i : Instr} {m m' : Machine} {r : Except Halt Flow}
    (hi : code[pc]? = some i) (h : decided s code (i.step s code pc) m r m') :
    Ends s code pc m r m' := by
  apply Ends.of_step
  rw [step, hi]
  exact h

theorem Ends.goto {pc target : Nat} {m m' : Machine} {r : Except Halt Flow}
    (hi : code[pc]? = some (.goto target)) (h : Ends s code target m r m') :
    Ends s code pc m r m' := .of_instr hi h

theorem Ends.behind {pc : Nat} {m : Machine} (h : code[pc]? = none) :
    Ends s code pc m (.ok .normal) m := by
  apply Ends.stop
  rw [step, h]
  rfl

structure Implements (start : Runs) (act : Eval α) (stop : α → Runs) : Prop where
  onward : Onward act
  runs : ∀ {m r m'}, Calm m (act.on m).2 → resumed stop (act.on m).1 (act.on m).2 r m' →
    start m r m'

namespace Implements

variable {act : Eval α} {stop stop' : α → Runs}

theorem pure (stop : α → Runs) (a : α) : Implements (stop a) (Pure.pure a) stop :=
  ⟨.pure a, fun _ h => h⟩

theorem fail (stop : α → Runs) (e : EvalError) :
    Implements (ended (.error (.error e))) (Eval.fail e) stop :=
  ⟨.fail e, fun _ h => h⟩

theorem bind {mid : β → Runs} {first : Eval β} {next : β → Eval α}
    (h : Implements start first mid) (hn : ∀ b, Implements (mid b) (next b) stop) :
    Implements start (first >>= next) stop := by
  refine ⟨h.onward.bind fun b => (hn b).onward, ?_⟩
  intro m r m' hc hr
  have hl := h.onward m
  have hf : Calm m (first.on m).2 → resumed mid (first.on m).1 (first.on m).2 r m' →
      start m r m' := h.runs
  rw [on_bind] at hc hr
  rcases hs : first.on m with ⟨e | b, n⟩
  · rw [hs] at hc hr hf
    exact hf hc hr
  · rw [hs] at hc hr hf hl
    have hn := hn b
    exact hf (hc.left hl (hn.onward n)) (hn.runs (hc.right hl (hn.onward n)) hr)

theorem before (h : Implements start act stop)
    (hs : ∀ {m r m'}, start m r m' → start' m r m') : Implements start' act stop :=
  ⟨h.onward, fun hc hr => hs (h.runs hc hr)⟩

theorem behind (h : Implements start act stop)
    (hs : ∀ a {m r m'}, stop' a m r m' → stop a m r m') : Implements start act stop' := by
  refine ⟨h.onward, ?_⟩
  intro m r m' hc hr
  apply h.runs hc
  cases he : (act.on m).1 with
  | ok a =>
    rw [he] at hr
    exact hs a hr
  | error e =>
    rw [he] at hr
    exact hr

theorem decided_bind (h : Onward act) (next : α → Eval Control) :
    Implements (decided s code (act >>= next)) act fun a => decided s code (next a) := by
  refine ⟨h, ?_⟩
  intro m r m' _ hr
  rw [decided, on_bind]
  rcases hs : act.on m with ⟨e | a, n⟩
  · rw [hs] at hr
    exact hr
  · rw [hs] at hr
    exact hr

theorem unlessRequested {next : Eval Flow} {stop : Flow → Runs} (h : Implements start next stop) :
    Implements start (Eval.unlessRequested next) stop := by
  constructor
  · apply (Onward.of_ensures fun m₀ => (framed_later m₀).takeRequest).bind
    intro r
    cases r with
    | none => exact h.onward
    | some target => exact .pure _
  · intro m r m' hc hr
    rw [on_unlessRequested hc.requested] at hc hr
    exact h.runs hc hr

theorem capped (stop : Flow → Runs) (what : String) (cap : Nat) :
    Implements start (Flow.capped what cap) stop := by
  have hl (m : Machine) : Later (m.note .capped) ((Flow.capped what cap).on m).2 :=
    ⟨[], (List.append_nil _).symm, fun _ h => h⟩
  constructor
  · intro m
    exact ((Later.refl m).note id).trans (hl m)
  · intro m r m' hc
    exact (Calm.not_note (.refl m) (hl m) id hc).elim

section Instr

variable {pc : Nat}

theorem behind_goto {act : Eval Flow} {target : Nat} (hi : code[pc]? = some (.goto target))
    (h : Implements start act (follow s code pc x)) :
    Implements start act (follow s code target x) := by
  apply h.behind
  intro flow m r m' hr
  cases flow with
  | normal => exact Ends.goto hi hr
  | «break» => exact hr
  | «continue» => exact hr
  | «return» v => exact hr
  | state target => exact hr
  | jump label => exact hr

theorem leaf {t : Stmt} (hi : code[pc]? = some (.run t x)) (h : Onward (t.run s none)) :
    Implements (Ends s code pc) (t.run s none) (follow s code (pc + 1) x) :=
  (decided_bind h _).before (Ends.of_instr hi)

theorem effects {es : List Expr} (hi : code[pc]? = some (.effects es)) (h : Onward (s.effects es)) :
    Implements (Ends s code pc) (s.effects es) fun _ => Ends s code (pc + 1) :=
  (decided_bind h _).before (Ends.of_instr hi)

theorem no_effects : Implements start (s.effects []) fun _ => start :=
  pure (fun _ => start) ()

theorem test {c : Option Expr} {other : Nat} (hi : code[pc]? = some (.test c other))
    (h : Onward (condition s c)) : Implements (Ends s code pc) (condition s c) fun go =>
      Ends s code (if go then pc + 1 else other) :=
  (decided_bind h _).before (Ends.of_instr hi)

end Instr

theorem after {next stop : Nat} {rest : Eval Flow}
    (h : Implements (Ends s code next) rest (follow s code stop x)) :
    (flow : Flow) → Implements (follow s code next ⟨some stop, some next⟩ flow)
      (Loop.after flow rest) (follow s code stop x)
  | .normal => h.unlessRequested
  | .continue => h.unlessRequested
  | .break => pure (follow s code stop x) .normal
  | .return v => pure (follow s code stop x) (.return v)
  | .state target => pure (follow s code stop x) (.state target)
  | .jump label => pure (follow s code stop x) (.jump label)

end Implements

/-- The code has the body of a loop at the place `first`.  Behind a pass control is at `next`, the test
is at `again`, and the loop ends at `stop`. -/
structure LoopAt (s : Scope) (code : List Instr) (l : Loop) (first next again stop : Nat) :
    Prop where
  body : Implements (Ends s code first) (l.body none) (follow s code next ⟨some stop, some next⟩)
  step : Implements (Ends s code next) l.step fun _ => Ends s code again
  test : Implements (Ends s code again) l.test fun go => Ends s code (if go then first else stop)

namespace LoopAt

variable {l : Loop} {first next again stop : Nat}
  (h : LoopAt s code l first next again stop)
include h

theorem passes (left : Nat) :
    Implements (Ends s code first) (l.passes left) (follow s code stop x) := by
  induction left with
  | zero => exact .capped _ _ _
  | succ left ih =>
    apply h.body.bind
    apply Implements.after
    apply h.step.bind
    intro _
    apply h.test.bind
    intro go
    cases go with
    | true => exact ih
    | false => exact .pure (follow s code stop x) .normal

theorem tested : Implements (Ends s code again) l.tested (follow s code stop x) := by
  apply h.test.bind
  intro go
  cases go with
  | true => exact h.passes l.cap
  | false => exact .pure (follow s code stop x) .normal

theorem resume {path : List Nat}
    (hb : Implements start (l.body (some path)) (follow s code next ⟨some stop, some next⟩)) :
    Implements start (l.resume path) (follow s code stop x) := by
  apply hb.bind
  apply Implements.after
  exact h.step.bind fun _ => h.tested

end LoopAt

/-- The code has the statements of a block at their places, and finds its labels there. -/
structure BlockAt (s : Scope) (code : List Instr) (b : Block) (place : Nat → Nat) (x : Exits) :
    Prop where
  statement : ∀ i (hi : i < b.statements.size),
    Implements (Ends s code (place i)) (b.statements[i] none) (follow s code (place (i + 1)) x)
  label : ∀ {label i}, b.label? label = some i → i < b.statements.size ∧
    ∃ p, place? code label = some p ∧
      ∀ {m r m'}, Ends s code (place (i + 1)) m r m' → Ends s code p m r m'

namespace BlockAt

variable {b : Block} {place : Nat → Nat} (h : BlockAt s code b place x)
include h

theorem next {left pc : Nat} (hpc : pc < b.statements.size)
    (hr : ∀ {left' pc'}, left' < left ∨ left' = left ∧ pc < pc' → pc' ≤ b.statements.size →
      Implements (Ends s code (place pc')) (b.runFrom left' pc' none)
        (follow s code (place b.statements.size) x)) :
    (flow : Flow) → Implements (follow s code (place (pc + 1)) x flow) (b.next left pc flow)
      (follow s code (place b.statements.size) x)
  | .normal => hr (.inr ⟨rfl, Nat.lt_succ_self pc⟩) hpc
  | .break => .pure (follow s code (place b.statements.size) x) .break
  | .continue => .pure (follow s code (place b.statements.size) x) .continue
  | .return v => .pure (follow s code (place b.statements.size) x) (.return v)
  | .state target => .pure (follow s code (place b.statements.size) x) (.state target)
  | .jump label => by
    rw [Block.next]
    cases ht : b.label? label with
    | none => exact .pure (follow s code (place b.statements.size) x) (.jump label)
    | some target =>
      obtain ⟨htb, p, hp, he⟩ := h.label ht
      have hj {m : Machine} {r : Except Halt Flow} {m' : Machine}
          (hm : Ends s code (place (target + 1)) m r m') :
          follow s code (place (pc + 1)) x (.jump label) m r m' := by
        rw [follow, control, hp]
        exact he hm
      by_cases hft : pc < target
      · simpa [hft] using (hr (.inr ⟨rfl, Nat.lt_succ_of_lt hft⟩) htb).before hj
      · cases left with
        | zero => simpa [hft] using Implements.capped _ _ _
        | succ left => simpa [hft] using (hr (.inl (Nat.lt_succ_self left)) htb).before hj

theorem runFrom (left pc : Nat) (hpc : pc ≤ b.statements.size) :
    Implements (Ends s code (place pc)) (b.runFrom left pc none)
        (follow s code (place b.statements.size) x) ∧
      (pc < b.statements.size → ∀ flow,
        Implements (follow s code (place (pc + 1)) x flow) (b.runFrom left pc (some flow))
          (follow s code (place b.statements.size) x)) := by
  induction left, pc using b.runFrom_induction with
  | step left pc ihp ihl =>
    have hsome (hlt : pc < b.statements.size) (flow : Flow) :
        Implements (follow s code (place (pc + 1)) x flow) (b.runFrom left pc (some flow))
          (follow s code (place b.statements.size) x) := by
      rw [b.runFrom_some hlt]
      apply Implements.unlessRequested
      apply h.next hlt
      rintro left' pc' (h | ⟨rfl, h⟩) hle
      · exact (ihl left' pc' h hle).1
      · exact (ihp pc' h hlt hle).1
    refine ⟨?_, hsome⟩
    rcases Nat.lt_or_eq_of_le hpc with hlt | rfl
    · rw [b.runFrom_none hlt]
      exact (h.statement pc hlt).bind (hsome hlt)
    · rw [b.runFrom_of_le (Nat.le_refl _)]
      exact .pure (follow s code (place b.statements.size) x) .normal

theorem run_none :
    Implements (Ends s code (place 0)) (b.run none) (follow s code (place b.statements.size) x) :=
  (h.runFrom b.cap 0 (Nat.zero_le _)).1

theorem run_some {i : Nat} {path : List Nat} (hi : i < b.statements.size)
    (hs : Implements start (b.statements[i] (some path)) (follow s code (place (i + 1)) x)) :
    Implements start (b.run (some (i :: path))) (follow s code (place b.statements.size) x) := by
  rw [Block.run, Array.getElem?_eq_getElem hi]
  exact hs.bind ((h.runFrom b.cap i (Nat.le_of_lt hi)).2 hi)

end BlockAt

end PrimScript.Flat
