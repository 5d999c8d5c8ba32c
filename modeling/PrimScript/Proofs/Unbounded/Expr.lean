import PrimScript.Proofs.Eval.Frames
import PrimScript.Proofs.Unbounded.Basic

/-! Expressions come to their end: by induction over expressions and targets.  When an action that may never end does,
and comes to what another action comes to, is said of the machines with a given number of frames, on which it
depends whether functions may be called. -/

namespace PrimScript

section

open Eval

theorem Eval.stable_depth (d : Nat) : Stable (fun m => m.stack.depth = d) fun _ => True where
  closed := .all
  warn _ _ hm := hm
  stated _ hm := hm
  capped hm := hm
  taken hm := hm
  slot _ _ := trivial
  declare name type _ hm _ := (CallStack.depth_declare _ name type _).trans hm
  assign hm _ hs := ⟨trivial, (CallStack.frames_of_assign hs).1.trans hm⟩
  library _ _ _ := by
    intro m hm
    rw [on_callLibrary_snd]
    exact ⟨hm, fun _ _ => trivial⟩

namespace Unbounded

variable {α β : Type} {d : Nat}

theorem Act.bind_apply (x : Act α) (f : α → Act β) (m : Machine) :
    (x >>= f) m = x m >>= fun
      | (.ok a, m) => f a m
      | (.error e, m) => some (.error e, m) := by
  change (x m).bind _ = (x m).bind _
  refine congrArg _ (funext fun r => ?_)
  rcases r with ⟨e | a, m⟩ <;> rfl

/-- With `d` frames the actions `x` come to what `y` comes to, from some of them on. -/
def Follows (d : Nat) (x : Nat → Act α) (y : Eval α) : Prop :=
  ∀ m, m.stack.depth = d → (∃ n, ∀ k, n ≤ k → x k m = some (y.on m)) ∧ (y.on m).2.stack.depth = d

namespace Follows

theorem pure (a : α) : Follows d (fun _ => pure a) (pure a) := fun _ hm => ⟨⟨0, fun _ _ => rfl⟩, hm⟩

theorem of {W : α → Prop} {y : Eval α} (h : Ensures (fun m => m.stack.depth = d) W y) :
    Follows d (fun _ => .of y) y := fun m hm => ⟨⟨0, fun _ _ => rfl⟩, (h m hm).1⟩

theorem yields {W : α → Prop} {y : Eval α}
    (h : (Contract.keeping (fun m => m.stack.depth = d) fun _ => True).Yields W y) :
    Follows d (fun _ => .of y) y := .of (ensures_iff_meets.2 h)

theorem ends {y : Eval Flow}
    (h : (Contract.keeping (fun m => m.stack.depth = d) fun _ => True).Ends y) :
    Follows d (fun _ => .of y) y := .of (ensures_iff_meets.2 h)

theorem fail (e : EvalError) : Follows d (fun _ => .of (Eval.fail e : Eval α)) (Eval.fail e) :=
  fun _ hm => ⟨⟨0, fun _ _ => rfl⟩, hm⟩

theorem later {x : Nat → Act α} {y : Eval α} (h : Follows d (fun k => x (k + 1)) y) :
    Follows d x y := by
  intro m hm
  obtain ⟨⟨n, hn⟩, hd⟩ := h m hm
  refine ⟨⟨n + 1, fun k hk => ?_⟩, hd⟩
  obtain ⟨k, rfl⟩ : ∃ j, k = j + 1 := ⟨k - 1, by omega⟩
  exact hn k (by omega)

theorem bind {x : Nat → Act α} {y : Eval α} {f : Nat → α → Act β} {g : α → Eval β}
    (h : Follows d x y) (hf : ∀ a, Follows d (fun k => f k a) (g a)) :
    Follows d (fun k => x k >>= f k) (y >>= g) := by
  intro m hm
  obtain ⟨⟨n, hx⟩, hd⟩ := h m hm
  simp only [Act.bind_apply, on_bind]
  generalize y.on m = r at hx hd
  rcases r with ⟨e | a, m'⟩
  · exact ⟨⟨n, fun k hk => by rw [hx k hk]; rfl⟩, hd⟩
  · obtain ⟨⟨n', hfa⟩, hd'⟩ := hf a m' hd
    refine ⟨⟨max n n', fun k hk => ?_⟩, hd'⟩
    rw [hx k (by omega)]
    exact hfa k (by omega)

theorem discard {x : Nat → Act α} {y : Eval α} (h : Follows d x y) :
    Follows d (fun k => x k >>= fun _ => Pure.pure ()) (discard y) := by
  rw [discard_eq_bind]
  exact h.bind fun _ => pure ()

theorem discard_then {x : Nat → Act α} {y : Eval α} {x' : Nat → Act β} {y' : Eval β}
    (h : Follows d x y) (h' : Follows d x' y') :
    Follows d (fun k => x k >>= fun _ => x' k) (Functor.discard y >>= fun _ => y') := by
  rw [discard_eq_bind, bind_assoc]
  refine h.bind fun _ => ?_
  rw [pure_bind]
  exact h'

end Follows

/-- The context and the scope allow the same, and calls of functions with `d` frames in place come to what
the scope says. -/
structure Matches (d : Nat) (c : Context) (s : Scope) : Prop where
  functions : c.functions = s.functions
  loopCap : c.loopCap.toNat = s.loopCap
  limited : s.loopCap < UInt64.size - 1
  detected : c.detected = s.detected
  call : ∀ name f args, Follows d (fun n => (c.runs n).call name f args) (s.invoke name f args)

end Unbounded

end

namespace Unbounded

open Eval

variable {d : Nat} {c : Context} {s : Scope}

mutual

theorem follows_eval (h : Matches d c s) (hint : Option ValueType) :
    (e : Expr) → Follows d (fun n => (c.runs n).eval hint e) (e.eval s hint)
  | .literal l => by
    rw [Expr.eval]
    apply Follows.later
    exact .pure _
  | .ident name => by
    rw [Expr.eval]
    apply Follows.later
    exact .yields ((stable_depth d).bodies.resolve name hint)
  | .binary op left right => by
    rw [Expr.eval]
    apply Follows.later
    apply (follows_eval h none left).bind
    intro a
    cases op.decided? a with
    | some v => exact .pure v
    | none =>
      apply (follows_eval h none right).bind
      intro b
      exact .yields ((stable_depth d).bodies.binary op trivial trivial)
  | .unary op operand => by
    rw [Expr.eval]
    apply Follows.later
    apply (follows_eval h none operand).bind
    intro a
    exact .yields ((stable_depth d).bodies.unary op trivial)
  | .step op before target => by
    rw [Expr.eval]
    apply Follows.later
    apply (follows_read h target).bind
    intro old
    cases op.apply? old with
    | some new =>
      apply (follows_write h new target).bind
      intro stored
      exact .pure _
    | none => exact (Follows.yields ((stable_depth d).bodies.warned _ _ rfl)).bind fun _ => .pure old
  | .call name args => by
    rw [Expr.eval]
    apply Follows.later
    simp only [Context.runs, Runs.once, Runs.evalOnce, h.functions, h.detected]
    cases s.functions.find? name with
    | some f =>
      apply (follows_evalArgs h name 1 _ args).bind
      intro values
      apply (Follows.yields ((stable_depth d).bodies.complete name _ _ fun _ _ => trivial)).bind
      intro values
      exact h.call name f values
    | none =>
      cases hf : Library.find? name with
      | some f =>
        apply (follows_evalArgs h name 1 _ args).bind
        intro values
        apply (Follows.yields ((stable_depth d).bodies.complete name _ _ fun _ _ => trivial)).bind
        intro values
        exact .of ((stable_depth d).library (List.mem_of_find?_eq_some hf) (fun _ _ => trivial) _)
      | none =>
        apply (follows_effects h args).bind
        intro _
        exact (Follows.yields ((stable_depth d).bodies.warned _ _ rfl)).bind fun _ => .pure _
  | .vector x y z => by
    rw [Expr.eval]
    apply Follows.later
    apply (follows_eval h _ x).bind
    intro a
    apply (follows_eval h _ y).bind
    intro b
    apply (follows_eval h _ z).bind
    intro c
    exact .pure _
  | .rotation x y z w => by
    rw [Expr.eval]
    apply Follows.later
    apply (follows_eval h _ x).bind
    intro a
    apply (follows_eval h _ y).bind
    intro b
    apply (follows_eval h _ z).bind
    intro c
    apply (follows_eval h _ w).bind
    intro d
    exact .pure _
  | .list items => by
    rw [Expr.eval]
    apply Follows.later
    apply (follows_evalAll h items).bind
    intro values
    exact .pure _
  | .component of axis => by
    rw [Expr.eval]
    apply Follows.later
    apply (follows_eval h none of).bind
    intro v
    exact .yields ((stable_depth d).bodies.component _ v axis)
  | .subscript list index => by
    rw [Expr.eval]
    apply Follows.later
    apply (follows_eval h none list).bind
    intro v
    apply (follows_eval h none index).bind
    intro i
    exact .yields ((stable_depth d).bodies.element _ trivial _ hint)
  | .slice list start stop => by
    rw [Expr.eval]
    apply Follows.later
    apply (follows_eval h none list).bind
    intro v
    apply (follows_eval h none start).bind
    intro i
    apply (follows_eval h none stop).bind
    intro j
    exact .pure _
  | .cast type operand => by
    rw [Expr.eval]
    apply Follows.later
    apply (follows_eval h _ operand).bind
    intro v
    exact .pure _
  | .assign target op value => by
    rw [Expr.eval]
    apply Follows.later
    apply (Follows.yields (Target.yields_hint target)).bind
    intro hint
    apply (follows_eval h hint value).bind
    intro v
    cases op.binary? with
    | none => exact follows_write h v target
    | some op =>
      apply (follows_read h target).bind
      intro old
      apply (Follows.yields ((stable_depth d).bodies.binary op trivial trivial)).bind
      intro new
      exact follows_write h new target

theorem follows_read (h : Matches d c s) : (t : Target) → Follows d (fun n => (c.runs n).read t) (t.read s)
  | .variable name => by
    rw [Target.read]
    exact .yields ((stable_depth d).bodies.resolve name none)
  | .component name axis => by
    rw [Target.read]
    apply (Follows.yields ((stable_depth d).bodies.resolve name none)).bind
    intro v
    exact .yields ((stable_depth d).bodies.component _ v axis)
  | .element name index => by
    rw [Target.read]
    apply (Follows.yields ((stable_depth d).bodies.resolve name none)).bind
    intro v
    apply (follows_eval h none index).bind
    intro i
    exact .yields ((stable_depth d).bodies.element _ trivial _ none)

theorem follows_write (h : Matches d c s) (v : Value) :
    (t : Target) → Follows d (fun n => (c.runs n).write t v) (t.write s v)
  | .variable name => by
    rw [Target.write]
    exact .yields ((stable_depth d).bodies.assigned name trivial)
  | .component name axis => by
    rw [Target.write]
    exact (Follows.yields ((stable_depth d).bodies.setComponent name axis _)).bind fun _ => .pure _
  | .element name index => by
    rw [Target.write]
    apply (Follows.yields ((stable_depth d).bodies.resolve name none)).bind
    intro old
    apply (follows_eval h none index).bind
    intro i
    exact (Follows.yields ((stable_depth d).bodies.setElement name trivial trivial _)).bind
      fun _ => .pure v

theorem follows_evalAll (h : Matches d c s) : (es : List Expr) →
    Follows d (fun n => (c.runs n).evalAll es) (Expr.evalAll s es)
  | [] => by
    rw [Expr.evalAll]
    exact .pure []
  | e :: es => by
    rw [Expr.evalAll]
    apply (follows_eval h none e).bind
    intro v
    apply (follows_evalAll h es).bind
    intro vs
    exact .pure _

theorem follows_effects (h : Matches d c s) (es : List Expr) :
    Follows d (fun n => (c.runs n).effects es) (s.effects es) :=
  (follows_evalAll h es).discard

theorem follows_evalArgs (h : Matches d c s) (callee : String) (number : Nat) (ts : List ValueType) :
    (es : List Expr) →
      Follows d (fun n => (c.runs n).evalArgs callee number ts es) (Expr.evalArgs s callee number ts es)
  | [] => by
    rw [Expr.evalArgs]
    exact .pure []
  | e :: es => by
    cases ts with
    | nil =>
      rw [Expr.evalArgs]
      exact (follows_eval h none e).discard_then (follows_evalArgs h callee (number + 1) [] es)
    | cons t ts =>
      rw [Expr.evalArgs]
      apply (follows_eval h _ e).bind
      intro v
      apply (Follows.yields ((stable_depth d).bodies.argument callee number t trivial)).bind
      intro v
      apply (follows_evalArgs h callee (number + 1) ts es).bind
      intro vs
      exact .pure _

end

theorem follows_evalAs (h : Matches d c s) (type : ValueType) (e : Expr) :
    Follows d (fun n => (c.runs n).evalAs type e) (e.evalAs s type) :=
  (follows_eval h (some type) e).bind fun _ => .pure _

end Unbounded

end PrimScript
