import PrimScript.Proofs.Eval.Flow
import PrimScript.Proofs.Eval.Once
import PrimScript.Proofs.Eval.Path

/-! How often loops are passed.  From its start a loop enters its body no more often than the limit on it
says.  A jump to a label in the body is one pass that is not counted, and the limit holds for those after
it. -/

namespace PrimScript

open Eval Machine

namespace Loop

variable (l : Loop)

/-- The body once, and what is done before the next pass.  Gives how the loop ends, unless another pass is
due. -/
def pass (entry : Entry) : Eval (Option Flow) := do
  match ← l.body entry with
  | .break => pure (some .normal)
  | .return v => pure (some (.return v))
  | .state target => pure (some (.state target))
  | .jump label => pure (some (.jump label))
  | .normal | .continue =>
    match ← takeRequest with
    | some target => pure (some (.state target))
    | none => do
      l.step
      if ← l.test then pure none else pure (some .normal)

inductive Outcome
  | halted (h : Halt) : Outcome
  /-- The loop is over. -/
  | left (f : Flow) : Outcome
  /-- Another pass is due. -/
  | due : Outcome

inductive Makes : Entry → Machine → Nat → Outcome → Machine → Prop
  | zero (entry : Entry) (m : Machine) : Makes entry m 0 .due m
  | halt {entry : Entry} {m n : Machine} {h : Halt} :
    (l.pass entry).on m = (.error h, n) → Makes entry m 1 (.halted h) n
  | last {entry : Entry} {m n : Machine} {f : Flow} :
    (l.pass entry).on m = (.ok (some f), n) → Makes entry m 1 (.left f) n
  | again {entry : Entry} {m k n : Machine} {number : Nat} {o : Outcome} :
    (l.pass entry).on m = (.ok none, k) → Makes none k number o n → Makes entry m (number + 1) o n

def exhausted (m : Machine) : Machine :=
  { m.note .capped with
    world := m.world.report .loopCapExceeded s!"loop aborted after {l.cap} iterations" }

/-- What the loop comes to when the passes that it may make come to that. -/
def result : Outcome → Machine → Except Halt Flow × Machine
  | .halted h, m => (.error h, m)
  | .left f, m => (.ok f, m)
  | .due, m => (.ok .normal, l.exhausted m)

/-- The loop makes `limit` passes at most, and comes to what these come to.  It is cut off only when it has
made all of them. -/
def Within (entry : Entry) (m : Machine) (limit : Nat) (r : Except Halt Flow × Machine) : Prop :=
  ∃ number o n, l.Makes entry m number o n ∧ number ≤ limit ∧ (o = .due → number = limit) ∧
    r = l.result o n

def andThen (rest : Eval Flow) : Option Flow → Eval Flow
  | some f => pure f
  | none => rest

theorem pass_bind (entry : Entry) (rest : Eval Flow) :
    l.pass entry >>= andThen rest =
      l.body entry >>= fun flow =>
        after flow (do
          l.step
          if ← l.test then rest else pure .normal) := by
  rw [pass, bind_assoc]
  refine bind_congr fun flow => ?_
  have hturn : ((do
        match ← takeRequest with
        | some target => pure (some (.state target))
        | none => do
          l.step
          if ← l.test then pure none else pure (some .normal)) >>= andThen rest) =
      after .normal (do
        l.step
        if ← l.test then rest else pure .normal) := by
    rw [after, bind_assoc]
    refine bind_congr fun r => ?_
    cases r with
    | some target => rfl
    | none =>
      rw [bind_assoc]
      refine bind_congr fun _ => ?_
      rw [bind_assoc]
      refine bind_congr fun go => ?_
      cases go <;> rfl
  cases flow with
  | normal => exact hturn
  | «continue» => exact hturn
  | «break» => rfl
  | «return» v => rfl
  | state target => rfl
  | jump label => rfl

theorem Within.andThen {limit : Nat} {rest : Eval Flow}
    (h : ∀ m, l.Within none m limit (rest.on m)) (entry : Entry) (m : Machine) :
    l.Within entry m (limit + 1) ((l.pass entry >>= Loop.andThen rest).on m) := by
  rw [on_bind]
  rcases hp : (l.pass entry).on m with ⟨x | _ | f, k⟩
  · exact ⟨1, .halted x, k, .halt hp, Nat.le_add_left 1 limit, nofun, rfl⟩
  · obtain ⟨number, o, n, hm, hle, hdue, hr⟩ := h k
    exact ⟨number + 1, o, n, .again hp hm, Nat.succ_le_succ hle, fun ho => by rw [hdue ho], hr⟩
  · exact ⟨1, .left f, k, .last hp, Nat.le_add_left 1 limit, nofun, rfl⟩

theorem within_passes (left : Nat) (m : Machine) : l.Within none m left ((l.passes left).on m) := by
  induction left generalizing m with
  | zero => exact ⟨0, .due, m, .zero none m, Nat.le_refl 0, fun _ => rfl, rfl⟩
  | succ left ih =>
    rw [passes, ← pass_bind]
    exact .andThen l ih none m

theorem within_resume (path : List Nat) (m : Machine) :
    l.Within (some path) m (l.cap + 1) ((l.resume path).on m) := by
  rw [resume, tested, ← pass_bind]
  exact .andThen l (l.within_passes l.cap) (some path) m

end Loop

def Stmt.loop? (s : Scope) : Stmt → Option (Eval Bool × Loop)
  | .while condition body =>
    let l := s.loop (some condition) (body.run s) []
    some (l.test, l)
  | .doWhile body condition => some (pure true, s.loop (some condition) (body.run s) [])
  | .for init condition step body =>
    let l := s.loop condition (body.run s) step
    some (do s.effects init; l.test, l)
  | _ => none

namespace Stmt

variable {s : Scope} {t : Stmt} {start : Eval Bool} {l : Loop}

theorem cap_of_loop? (ht : t.loop? s = some (start, l)) : l.cap = s.loopCap := by
  cases t <;> cases ht <;> rfl

theorem run_loop_none (ht : t.loop? s = some (start, l)) :
    t.run s none = start >>= fun go => if go then l.passes l.cap else pure .normal := by
  cases t <;> cases ht
  · rw [run]; rfl
  · rw [run, pure_bind]; rfl
  · rw [run, bind_assoc]; rfl

theorem run_loop_some (ht : t.loop? s = some (start, l)) (path : List Nat) :
    t.run s (some path) = l.resume path.tail := by
  cases t <;> cases ht <;> rw [run]

def behind (s : Scope) (body : List Stmt) (left i : Nat) : Eval Flow :=
  unlessRequested ((s.block body (runs s body)).runFrom left (i + 1) none)

theorem on_runFrom_of_normal {body : List Stmt} {i : Nat} (hi : body[i]? = some t) (left : Nat)
    {m n : Machine} (hr : (t.run s none).on m = (.ok .normal, n)) :
    ((s.block body (runs s body)).runFrom left i none).on m = (behind s body left i).on n := by
  obtain ⟨hlt, -⟩ := List.getElem?_eq_some_iff.1 hi
  have hsize : i < (s.block body (runs s body)).statements.size := by rwa [s.size_block]
  rw [Block.runFrom_none _ hsize, s.getElem_block hi, on_bind_ok hr, Block.runFrom_some _ hsize]
  rfl

theorem on_run_of_normal {body : List Stmt} {i : Nat} (hi : body[i]? = some t) (path : List Nat)
    {m n : Machine} (hr : (t.run s (some path)).on m = (.ok .normal, n)) :
    ((s.block body (runs s body)).run (some (i :: path))).on m = (behind s body s.loopCap i).on n := by
  obtain ⟨hlt, -⟩ := List.getElem?_eq_some_iff.1 hi
  have hsize : i < (s.block body (runs s body)).statements.size := by rwa [s.size_block]
  have hget : (s.block body (runs s body)).statements[i]? = some (t.run s) := by
    rw [Array.getElem?_eq_getElem hsize, s.getElem_block hi]
  rw [Block.run, hget]
  dsimp only
  rw [on_bind_ok hr, Block.runFrom_some _ hsize]
  rfl

/-- From its start a loop makes as many passes as the limit says, at most, and one more when it is entered at
a label in its body.  When they are used up that is reported once, and the loop ends normally; what follows it
in its block is run then. -/
theorem on_run_loop (ht : t.loop? s = some (start, l)) (m : Machine) :
    ((∃ h n, start.on m = (.error h, n) ∧ (t.run s none).on m = (.error h, n)) ∨
      (∃ n, start.on m = (.ok false, n) ∧ (t.run s none).on m = (.ok .normal, n)) ∨
      ∃ n, start.on m = (.ok true, n) ∧ l.Within none n s.loopCap ((t.run s none).on m)) ∧
    (∀ path, l.Within (some path.tail) m (s.loopCap + 1) ((t.run s (some path)).on m)) ∧
    ∀ body i n, body[i]? = some t →
      ((t.run s none).on m = (.ok .normal, n) → ∀ left,
        ((s.block body (runs s body)).runFrom left i none).on m = (behind s body left i).on n) ∧
      ∀ path, (t.run s (some path)).on m = (.ok .normal, n) →
        ((s.block body (runs s body)).run (some (i :: path))).on m = (behind s body s.loopCap i).on n := by
  refine ⟨?_, fun path => ?_, fun body i n hi =>
    ⟨fun hr left => on_runFrom_of_normal hi left hr, fun path hr => on_run_of_normal hi path hr⟩⟩
  · rw [run_loop_none ht, on_bind]
    rcases start.on m with ⟨h | _ | _, n⟩
    · exact .inl ⟨h, n, rfl, rfl⟩
    · exact .inr (.inl ⟨n, rfl, rfl⟩)
    · exact .inr (.inr ⟨n, rfl, cap_of_loop? ht ▸ l.within_passes l.cap n⟩)
  · rw [run_loop_some ht, ← cap_of_loop? ht]
    exact l.within_resume path.tail m

end Stmt

def Scope.once : Scope := ⟨[], 1, [], fun _ _ _ => pure (.integer 0)⟩

def Expr.climbs : Expr := .binary .lessThan (.step .increment false (.variable "i")) (.literal (.integer 9))

def Loop.climbing : Loop := Scope.once.loop (some .climbs) ((Stmt.label "inside").run .once) []

theorem Stmt.on_run_loop_climbing :
    let t : Stmt := .while .climbs (.label "inside")
    t.loop? .once = some (Loop.climbing.test, Loop.climbing) ∧
    (∃ n, Loop.climbing.test.on counting = (.ok true, n) ∧
      Loop.climbing.Within none n 1 ((t.run .once none).on counting)) ∧
    Loop.climbing.Within (some []) counting 2 ((t.run .once (some [0])).on counting) := by
  intro t
  have hl : t.loop? .once = some (Loop.climbing.test, Loop.climbing) := rfl
  have ht : (Loop.climbing.test.on counting).1 = .ok true := rfl
  obtain ⟨hstart, hjump, -⟩ := on_run_loop hl counting
  refine ⟨hl, ?_, hjump [0]⟩
  rcases hstart with ⟨h, n, hh, -⟩ | ⟨n, hf, -⟩ | hn
  · rw [hh] at ht
    cases ht
  · rw [hf] at ht
    cases ht
  · exact hn

/-- The limit is one pass, and the loop that is entered at the label makes two. -/
theorem Stmt.on_run_loop_inside :
    let r := ((Stmt.while .climbs (.label "inside")).run .once (some [0])).on counting
    (∃ n, Loop.climbing.Makes (some []) counting 2 .due n ∧ r = Loop.climbing.result .due n) ∧
    ¬Loop.climbing.Within (some []) counting Scope.once.loopCap r := by
  intro r
  refine ⟨⟨_, .again rfl (.again rfl (.zero none _)), rfl⟩, ?_⟩
  rintro ⟨number, o, n, hm, hle, hdue, hr⟩
  have hpass : ((Loop.climbing.pass (some [])).on counting).1 = .ok none := rfl
  cases hm with
  | zero => exact absurd (hdue rfl) (by decide)
  | halt hp =>
    rw [hp] at hpass
    cases hpass
  | last hp =>
    rw [hp] at hpass
    cases hpass
  | again hp hrest =>
    cases hrest with
    | zero =>
      -- After one pass the number is one, and the loop leaves it at two.
      obtain rfl : n = ((Loop.climbing.pass (some [])).on counting).2 := by rw [hp]
      have hi : (.ok (.integer 2) : Except NameError Value) = .ok (.integer 1) :=
        congrArg (·.2.stack.resolve "i") hr
      exact absurd hi (by simp)
    | halt => exact absurd hle (by decide)
    | last => exact absurd hle (by decide)
    | again => exact absurd (Nat.le_of_succ_le_succ hle) (Nat.not_succ_le_zero _)

end PrimScript
