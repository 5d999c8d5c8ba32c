import PrimScript.Proofs.Eval.Deeds
import PrimScript.Proofs.Eval.Request

/-! Prompt evaluation, in which no statement is begun while a state is asked for.  Handlers are prompt when the
conditions of their branches and the heads of their loops call no function of the script: a request made
there is taken note of only behind the statement that comes next. -/

namespace PrimScript

open Eval Machine

mutual

def Stmt.heads : Stmt → List Expr
  | .ite condition yes none => condition :: yes.heads
  | .ite condition yes (some no) => condition :: (yes.heads ++ no.heads)
  | .while condition body => condition :: body.heads
  | .doWhile body condition => condition :: body.heads
  | .for init condition step body => init ++ condition.toList ++ step ++ body.heads
  | .block body => headsOf body
  | _ => []

def headsOf : List Stmt → List Expr
  | [] => []
  | t :: ts => t.heads ++ headsOf ts

end

/-- Looks for a request first, unless a statement is entered at a label. -/
def Eval.heeding : Entry → Eval Flow → Eval Flow
  | none, act => unlessRequested act
  | some _, act => act

mutual

/-- Runs a statement as `Stmt.run` does, but begins none while a state is asked for. -/
def Stmt.promptly (s : Scope) : Stmt → Entry → Eval Flow
  | .ite _ yes _, some (0 :: path) => yes.promptly s (some path)
  | .ite _ _ (some no), some (1 :: path) => no.promptly s (some path)
  | .ite condition yes none, none => unlessRequested do
    if ← s.test condition then yes.promptly s none else pure .normal
  | .ite condition yes (some no), none => unlessRequested do
    if ← s.test condition then yes.promptly s none else no.promptly s none
  | .while condition body, entry =>
    let l := s.loop (some condition) (body.promptly s) []
    heeding entry <| match entry with
      | none => l.tested
      | some path => l.resume path.tail
  | .doWhile body condition, entry =>
    let l := s.loop (some condition) (body.promptly s) []
    heeding entry <| match entry with
      | none => l.passes l.cap
      | some path => l.resume path.tail
  | .for init condition step body, entry =>
    let l := s.loop condition (body.promptly s) step
    heeding entry <| match entry with
      | none => do
        s.effects init
        l.tested
      | some path => l.resume path.tail
  | .block body, entry => heeding entry ((s.block body (Stmt.promptlyAll s body)).run entry)
  | t, entry => heeding entry (t.run s entry)

def Stmt.promptlyAll (s : Scope) : List Stmt → List (Entry → Eval Flow)
  | [] => []
  | t :: ts => t.promptly s :: Stmt.promptlyAll s ts

end

def Scope.runBodyPromptly (s : Scope) (body : List Stmt) : Eval Flow := do
  let b := s.block body (Stmt.promptlyAll s body)
  s.afterJumps body b s.loopCap (← b.run none)

def Handler.actPromptly (h : Handler) (s : Scope) : Eval (Option String) := do
  match ← s.runBodyPromptly h.body with
  | .state target => pure (some target)
  | _ => takeRequest

namespace Eval

variable {α β : Type}

def Same (P : Machine → Prop) (act act' : Eval α) : Prop := ∀ m, P m → act.on m = act'.on m

namespace Same

variable {P : Machine → Prop} {Q : α → Machine → Prop} {X : Halt → Machine → Prop}
  {act act' : Eval α} {next next' : α → Eval β}

theorem refl (P : Machine → Prop) (act : Eval α) : Same P act act := fun _ _ => rfl

theorem bind (h : Same P act act') (hm : Meets P Q X act)
    (hn : ∀ a, Same (Q a) (next a) (next' a)) : Same P (act >>= next) (act' >>= next') := by
  intro m hp
  have hr := hm m hp
  rw [on_bind, on_bind, ← h m hp]
  generalize act.on m = r at hr ⊢
  rcases r with ⟨x | a, n⟩
  · rfl
  · exact hn a n hr

variable {flow flow' : Eval Flow} (h : Same Settled flow flow')
include h

theorem heeding (entry : Entry) : Same Settled flow (heeding entry flow') := by
  cases entry with
  | some path => exact h
  | none =>
    intro m hm
    rw [Eval.heeding, on_unlessRequested hm.requested]
    exact h m hm

theorem unlessRequested : Same Outer (unlessRequested flow) (unlessRequested flow') := by
  apply (refl Outer takeRequest).bind (settled_takeRequest (X := fun _ _ => True))
  intro r
  cases r with
  | none => exact h
  | some target => exact .refl _ _

end Same

end Eval

section Drivers

variable {X Y : Halt → Machine → Prop}

theorem Loop.same_after {next next' : Eval Flow} (h : Same Settled next next') (f : Flow) :
    Same Outer (Loop.after f next) (Loop.after f next') := by
  cases f with
  | normal => exact h.unlessRequested
  | «continue» => exact h.unlessRequested
  | «break» => exact .refl _ _
  | «return» v => exact .refl _ _
  | state target => exact .refl _ _
  | jump label => exact .refl _ _

section Loop

variable {cap : Nat} {test : Eval Bool} {step : Eval Unit} {body body' : Entry → Eval Flow}
  (ht : Meets Settled (fun _ => Settled) X test) (hs : Meets Settled (fun _ => Settled) X step)
  (hb : ∀ entry, Same Settled (body entry) (body' entry))
  (ho : ∀ entry, Meets Settled (fun _ => Outer) Y (body entry))
include ht hs hb ho

theorem Loop.same_passes (left : Nat) :
    Same Settled ((Loop.mk cap test body step).passes left)
      ((Loop.mk cap test body' step).passes left) := by
  induction left with
  | zero => exact .refl _ _
  | succ left ih =>
    apply (hb none).bind (ho none)
    apply Loop.same_after
    apply (Same.refl _ step).bind hs
    intro _
    apply (Same.refl _ test).bind ht
    intro go
    cases go with
    | true => exact ih
    | false => exact .refl _ _

theorem Loop.same_tested :
    Same Settled (Loop.mk cap test body step).tested (Loop.mk cap test body' step).tested := by
  apply (Same.refl _ test).bind ht
  intro go
  cases go with
  | true => exact Loop.same_passes ht hs hb ho cap
  | false => exact .refl _ _

theorem Loop.same_resume (path : List Nat) :
    Same Settled ((Loop.mk cap test body step).resume path)
      ((Loop.mk cap test body' step).resume path) := by
  apply (hb (some path)).bind (ho (some path))
  apply Loop.same_after
  apply (Same.refl _ step).bind hs
  exact fun _ => Loop.same_tested ht hs hb ho

end Loop

section Block

variable {cap : Nat} {label? : String → Option Nat} {st st' : Array (Entry → Eval Flow)}
  (hsize : st.size = st'.size)
  (hb : ∀ (i : Nat) (hi : i < st.size) (hi' : i < st'.size) entry,
    Same Settled (st[i] entry) (st'[i] entry))
  (ho : ∀ (i : Nat) (hi : i < st.size) entry, Meets Settled (fun _ => Outer) X (st[i] entry))
include hsize hb ho

theorem Block.same_runFrom (left pc : Nat) :
    Same Settled ((Block.mk cap label? st).runFrom left pc none)
        ((Block.mk cap label? st').runFrom left pc none) ∧
      ∀ f, Same Outer ((Block.mk cap label? st).runFrom left pc (some f))
        ((Block.mk cap label? st').runFrom left pc (some f)) := by
  induction left, pc using (Block.mk cap label? st).runFrom_induction with
  | step left pc ihp ihl =>
    by_cases hpc : pc < st.size
    · have hpc' : pc < st'.size := hsize ▸ hpc
      have hsome (f : Flow) : Same Outer ((Block.mk cap label? st).runFrom left pc (some f))
          ((Block.mk cap label? st').runFrom left pc (some f)) := by
        rw [Block.runFrom_some _ hpc, Block.runFrom_some _ hpc']
        apply Same.unlessRequested
        cases f with
        | normal => exact (ihp (pc + 1) (by omega) hpc).1
        | «break» => exact .refl _ _
        | «continue» => exact .refl _ _
        | «return» v => exact .refl _ _
        | state target => exact .refl _ _
        | jump label =>
          simp only [Block.next]
          cases label? label with
          | none => exact .refl _ _
          | some target =>
            by_cases hlt : pc < target
            · simpa [hlt] using (ihp (target + 1) (by omega) hpc).1
            · cases left with
              | zero => simpa [hlt] using Same.refl Settled (Flow.capped _ cap)
              | succ left => simpa [hlt] using (ihl left (target + 1) (by omega)).1
      refine ⟨?_, hsome⟩
      rw [Block.runFrom_none _ hpc, Block.runFrom_none _ hpc']
      exact (hb pc hpc hpc' none).bind (ho pc hpc none) hsome
    · have hle : st.size ≤ pc := Nat.not_lt.1 hpc
      have hle' : st'.size ≤ pc := hsize ▸ hle
      have heq (first : Option Flow) : (Block.mk cap label? st).runFrom left pc first =
          (Block.mk cap label? st').runFrom left pc first := by
        rw [Block.runFrom_of_le _ hle, Block.runFrom_of_le _ hle']
      rw [heq none]
      exact ⟨.refl _ _, fun f => heq (some f) ▸ .refl _ _⟩

theorem Block.same_run (entry : Entry) :
    Same Settled ((Block.mk cap label? st).run entry) ((Block.mk cap label? st').run entry) := by
  match entry with
  | none => exact (Block.same_runFrom hsize hb ho cap 0).1
  | some [] => exact .refl _ _
  | some (i :: path) =>
    by_cases hi : i < st.size
    · have hi' : i < st'.size := hsize ▸ hi
      simp only [Block.run, Array.getElem?_eq_getElem hi, Array.getElem?_eq_getElem hi']
      exact (hb i hi hi' (some path)).bind (ho i hi (some path)) (Block.same_runFrom hsize hb ho cap i).2
    · have hi' : ¬i < st'.size := hsize ▸ hi
      simp only [Block.run, Array.getElem?_eq_none (Nat.not_lt.1 hi),
        Array.getElem?_eq_none (Nat.not_lt.1 hi')]
      exact .refl _ _

end Block

end Drivers

theorem Eval.stable_settled : Stable Settled fun _ => True where
  closed := .all
  warn _ _ hm := ⟨hm.outer, hm.requested⟩
  stated _ hm := ⟨hm.outer, hm.requested⟩
  capped hm := ⟨hm.outer, hm.requested⟩
  taken hm := ⟨hm.outer, rfl⟩
  slot _ _ := trivial
  declare _ _ _ hm _ :=
    ⟨Nat.le_trans (Nat.le_of_eq (CallStack.depth_declare ..)) hm.outer, hm.requested⟩
  assign hm _ hs :=
    ⟨trivial, Nat.le_trans (Nat.le_of_eq (CallStack.frames_of_assign hs).1) hm.outer, hm.requested⟩
  library _ _ _ := by
    intro m hm
    rw [on_callLibrary_snd]
    exact ⟨⟨hm.outer, hm.requested⟩, fun _ _ => trivial⟩

theorem Stmt.promptlyAll_eq_map (s : Scope) (ts : List Stmt) :
    promptlyAll s ts = ts.map (·.promptly s) := by
  induction ts with
  | nil => rfl
  | cons t ts ih => rw [promptlyAll, ih, List.map_cons]

section Body

variable {s : Scope}

theorem Scope.settled_test {condition : Expr} (h : s.Foreign condition.deeds) :
    Meets Settled (fun _ => Settled) (fun _ => Settled) (s.test condition) := by
  have hb : s.bare.test condition = s.test condition := by
    rw [Scope.test, Scope.test, condition.eval_bare none h]
  rw [← hb]
  exact (ensures_iff_meets.1 (s.bare.ensures_test stable_settled (s.keeps_bare _ _) condition)).mono
    (fun _ => id) fun _ _ => And.left

theorem Scope.settled_effects {es : List Expr} (h : ∀ e ∈ es, s.Foreign e.deeds) :
    Meets Settled (fun _ => Settled) (fun _ => Settled) (s.effects es) := by
  have hb : s.bare.effects es = s.effects es := by
    rw [Scope.effects, Scope.effects, Expr.evalAll_bare es (Scope.foreign_deedsOf.2 h)]
  rw [← hb]
  exact (ensures_iff_meets.1 (s.bare.ensures_effects stable_settled (s.keeps_bare _ _) es)).mono
    (fun _ => id) fun _ _ => And.left

theorem Scope.settled_loop_test {condition : Option Expr}
    (h : ∀ c ∈ condition.toList, s.Foreign c.deeds) (body : Entry → Eval Flow)
    (step : List Expr) :
    Meets Settled (fun _ => Settled) (fun _ => Settled) (s.loop condition body step).test := by
  cases condition with
  | none => exact Meets.pure fun _ => id
  | some c => exact s.settled_test (h c (List.mem_singleton_self c))

def Scope.StaysOuter (s : Scope) : Prop :=
  ∀ (t : Stmt) entry, Meets Outer (fun _ => Outer) (fun _ _ => True) (t.run s entry)

section Parts

variable (hs : s.StaysOuter)
include hs

theorem Stmt.outer_of_settled (t : Stmt) (entry : Entry) :
    Meets Settled (fun _ => Outer) (fun _ _ => True) (t.run s entry) :=
  (hs t entry).mono (fun _ hm => hm.outer) fun _ _ => id

section Loop

variable {condition : Option Expr} {step : List Expr} {body : Stmt}
  (hc : ∀ c ∈ condition.toList, s.Foreign c.deeds) (hstep : ∀ e ∈ step, s.Foreign e.deeds)
  (hb : ∀ entry, Same Settled (body.run s entry) (body.promptly s entry))
include hc hstep hb

theorem Scope.same_passes (left : Nat) :
    Same Settled ((s.loop condition (body.run s) step).passes left)
      ((s.loop condition (body.promptly s) step).passes left) :=
  Loop.same_passes (s.settled_loop_test hc (body.run s) step) (s.settled_effects hstep) hb
    (body.outer_of_settled hs) left

theorem Scope.same_tested :
    Same Settled (s.loop condition (body.run s) step).tested
      (s.loop condition (body.promptly s) step).tested :=
  Loop.same_tested (s.settled_loop_test hc (body.run s) step) (s.settled_effects hstep) hb
    (body.outer_of_settled hs)

theorem Scope.same_resume (path : List Nat) :
    Same Settled ((s.loop condition (body.run s) step).resume path)
      ((s.loop condition (body.promptly s) step).resume path) :=
  Loop.same_resume (s.settled_loop_test hc (body.run s) step) (s.settled_effects hstep) hb
    (body.outer_of_settled hs) path

end Loop

theorem Scope.same_block {body : List Stmt}
    (hb : ∀ t ∈ body, ∀ entry, Same Settled (t.run s entry) (t.promptly s entry)) (entry : Entry) :
    Same Settled ((s.block body (Stmt.runs s body)).run entry)
      ((s.block body (Stmt.promptlyAll s body)).run entry) := by
  rw [Stmt.runs_eq_map, Stmt.promptlyAll_eq_map]
  apply Block.same_run (X := fun _ _ => True)
  · simp
  · intro i hi hi' entry
    simpa using hb _ (List.getElem_mem _) entry
  · intro i hi entry
    simpa using Stmt.outer_of_settled hs _ entry

end Parts

mutual

/-- Heads that call no function leave no request, so that each statement begins without one. -/
theorem Stmt.same_promptly (hs : s.StaysOuter) : (t : Stmt) → (∀ e ∈ t.heads, s.Foreign e.deeds) →
    ∀ entry, Same Settled (t.run s entry) (t.promptly s entry)
  | .ite condition yes none, h, none => by
    obtain ⟨hc, hy⟩ := List.forall_mem_cons.1 h
    rw [Stmt.run, Stmt.promptly]
    refine Same.heeding ?_ none
    apply (Same.refl Settled (s.test condition)).bind (s.settled_test hc)
    intro go
    cases go with
    | true => exact yes.same_promptly hs hy none
    | false => exact .refl _ _
  | .ite condition yes (some no), h, none => by
    obtain ⟨hc, h⟩ := List.forall_mem_cons.1 h
    obtain ⟨hy, hn⟩ := List.forall_mem_append.1 h
    rw [Stmt.run, Stmt.promptly]
    refine Same.heeding ?_ none
    apply (Same.refl Settled (s.test condition)).bind (s.settled_test hc)
    intro go
    cases go with
    | true => exact yes.same_promptly hs hy none
    | false => exact no.same_promptly hs hn none
  | .ite condition yes none, h, some (0 :: path) => by
    rw [Stmt.run, Stmt.promptly]
    exact yes.same_promptly hs (List.forall_mem_cons.1 h).2 _
  | .ite condition yes (some no), h, some (0 :: path) => by
    rw [Stmt.run, Stmt.promptly]
    exact yes.same_promptly hs (List.forall_mem_append.1 (List.forall_mem_cons.1 h).2).1 _
  | .ite condition yes (some no), h, some (1 :: path) => by
    rw [Stmt.run, Stmt.promptly]
    exact no.same_promptly hs (List.forall_mem_append.1 (List.forall_mem_cons.1 h).2).2 _
  | .ite _ _ none, _, some [] | .ite _ _ none, _, some ((_ + 1) :: _)
  | .ite _ _ (some _), _, some [] | .ite _ _ (some _), _, some ((_ + 2) :: _) => by
    simpa [Stmt.promptly] using (Same.refl Settled _).heeding _
  | .while condition body, h, none => by
    obtain ⟨hc, hb⟩ := List.forall_mem_cons.1 h
    rw [Stmt.run, Stmt.promptly]
    exact (s.same_tested hs (by simpa) (by simp) (body.same_promptly hs hb)).heeding none
  | .while condition body, h, some path => by
    obtain ⟨hc, hb⟩ := List.forall_mem_cons.1 h
    rw [Stmt.run, Stmt.promptly]
    exact s.same_resume hs (by simpa) (by simp) (body.same_promptly hs hb) _
  | .doWhile body condition, h, none => by
    obtain ⟨hc, hb⟩ := List.forall_mem_cons.1 h
    rw [Stmt.run, Stmt.promptly]
    exact (s.same_passes hs (by simpa) (by simp) (body.same_promptly hs hb) _).heeding none
  | .doWhile body condition, h, some path => by
    obtain ⟨hc, hb⟩ := List.forall_mem_cons.1 h
    rw [Stmt.run, Stmt.promptly]
    exact s.same_resume hs (by simpa) (by simp) (body.same_promptly hs hb) _
  | .for init condition step body, h, none => by
    obtain ⟨h, hb⟩ := List.forall_mem_append.1 h
    obtain ⟨h, hstep⟩ := List.forall_mem_append.1 h
    obtain ⟨hinit, hc⟩ := List.forall_mem_append.1 h
    rw [Stmt.run, Stmt.promptly]
    refine Same.heeding ?_ none
    apply (Same.refl Settled (s.effects init)).bind (s.settled_effects hinit)
    exact fun _ => s.same_tested hs hc hstep (body.same_promptly hs hb)
  | .for init condition step body, h, some path => by
    obtain ⟨h, hb⟩ := List.forall_mem_append.1 h
    obtain ⟨h, hstep⟩ := List.forall_mem_append.1 h
    rw [Stmt.run, Stmt.promptly]
    exact s.same_resume hs (List.forall_mem_append.1 h).2 hstep (body.same_promptly hs hb) _
  | .block body, h, entry => by
    rw [Stmt.run, Stmt.promptly]
    exact (s.same_block hs (Stmt.same_promptlyAll hs body h) entry).heeding entry
  | .declare _ _ _, _, entry | .assign _ _ _, _, entry | .expr _, _, entry | .return _, _, entry
  | .state _, _, entry | .jump _, _, entry | .label _, _, entry | .break, _, entry
  | .continue, _, entry | .empty, _, entry => (Same.refl Settled _).heeding entry

theorem Stmt.same_promptlyAll (hs : s.StaysOuter) : (ts : List Stmt) → (∀ e ∈ headsOf ts, s.Foreign e.deeds) →
    ∀ t ∈ ts, ∀ entry, Same Settled (t.run s entry) (t.promptly s entry)
  | [], _ => by simp
  | t :: ts, h => by
    obtain ⟨ht, hts⟩ := List.forall_mem_append.1 h
    exact List.forall_mem_cons.2 ⟨t.same_promptly hs ht, Stmt.same_promptlyAll hs ts hts⟩

end

variable (hs : s.StaysOuter)
include hs

section Whole

variable {body : List Stmt} (h : ∀ e ∈ headsOf body, s.Foreign e.deeds)
include h

theorem Scope.same_afterJumps (left : Nat) (f : Flow) :
    Same Settled (s.afterJumps body (s.block body (Stmt.runs s body)) left f)
      (s.afterJumps body (s.block body (Stmt.promptlyAll s body)) left f) := by
  induction left generalizing f with
  | zero =>
    cases f with
    | jump label =>
      unfold Scope.afterJumps
      cases pathIn? label 0 body <;> exact .refl _ _
    | _ => exact .refl _ _
  | succ left ih =>
    cases f with
    | jump label =>
      unfold Scope.afterJumps
      cases pathIn? label 0 body with
      | none => exact .refl _ _
      | some path =>
        exact (s.same_block hs (Stmt.same_promptlyAll hs body h) _).bind
          (s.settled_block hs body (some path)) ih
    | _ => exact .refl _ _

theorem Scope.same_runBody : Same Settled (s.runBody body) (s.runBodyPromptly body) :=
  (s.same_block hs (Stmt.same_promptlyAll hs body h) none).bind (s.settled_block hs body none)
    (s.same_afterJumps hs h s.loopCap)

end Whole

theorem Handler.same_act {f : Handler} (h : ∀ e ∈ headsOf f.body, s.Foreign e.deeds) :
    Same Settled (f.act s) (f.actPromptly s) :=
  (s.same_runBody hs h).bind (s.settled_runBody hs f.body) fun _ => .refl _ _

end Body

end PrimScript
