import PrimScript.Proofs.Eval.Stable

/-! What is written in an expression that may do more than give a value.  One that calls no function of the
script evaluates as it does where there are none. -/

namespace PrimScript

open Eval

inductive Deed
  | call (name : String) : Deed
  | store (target : Target) : Deed

mutual

def Expr.deeds : Expr → List Deed
  | .literal _ => []
  | .ident _ => []
  | .binary _ left right => left.deeds ++ right.deeds
  | .unary _ operand => operand.deeds
  | .step _ _ target => .store target :: target.deeds
  | .call name args => .call name :: deedsOf args
  | .vector x y z => x.deeds ++ y.deeds ++ z.deeds
  | .rotation x y z w => x.deeds ++ y.deeds ++ z.deeds ++ w.deeds
  | .list items => deedsOf items
  | .component of _ => of.deeds
  | .subscript list index => list.deeds ++ index.deeds
  | .slice list start stop => list.deeds ++ start.deeds ++ stop.deeds
  | .cast _ operand => operand.deeds
  | .assign target _ value => .store target :: (target.deeds ++ value.deeds)

def Target.deeds : Target → List Deed
  | .variable _ => []
  | .component _ _ => []
  | .element _ index => index.deeds

def deedsOf : List Expr → List Deed
  | [] => []
  | e :: es => e.deeds ++ deedsOf es

end

namespace Scope

variable (s : Scope)

def Foreign (ds : List Deed) : Prop := ∀ name, .call name ∈ ds → s.functions.find? name = none

def bare : Scope := { s with functions := [] }

variable {s} {ds ds' : List Deed}

theorem foreign_append : s.Foreign (ds ++ ds') ↔ s.Foreign ds ∧ s.Foreign ds' := by
  simp [Foreign, or_imp, forall_and]

theorem foreign_store {target : Target} : s.Foreign (.store target :: ds) ↔ s.Foreign ds := by
  simp [Foreign]

theorem foreign_call {name : String} :
    s.Foreign (.call name :: ds) ↔ s.functions.find? name = none ∧ s.Foreign ds := by
  simp [Foreign, or_imp, forall_and]

theorem foreign_deedsOf {es : List Expr} : s.Foreign (deedsOf es) ↔ ∀ e ∈ es, s.Foreign e.deeds := by
  induction es with
  | nil => simp [deedsOf, Foreign]
  | cons e es ih => rw [deedsOf, foreign_append, ih, List.forall_mem_cons]

theorem keeps_bare (I : Machine → Prop) (V : Value → Prop) : s.bare.Keeps I V := nofun

end Scope

variable {s : Scope}

mutual

theorem Expr.eval_bare (hint : Option ValueType) :
    (e : Expr) → s.Foreign e.deeds → e.eval s.bare hint = e.eval s hint
  | .literal l, _ => by rw [Expr.eval, Expr.eval]
  | .ident name, _ => by rw [Expr.eval, Expr.eval]
  | .binary op left right, h => by
    obtain ⟨hl, hr⟩ := Scope.foreign_append.1 h
    simp only [Expr.eval, left.eval_bare _ hl, right.eval_bare _ hr]
  | .unary op operand, h => by simp only [Expr.eval, operand.eval_bare _ h]
  | .step op before target, h => by
    have ht := Scope.foreign_store.1 h
    simp only [Expr.eval, target.read_bare ht, target.write_bare ht]
  | .call name args, h => by
    obtain ⟨hn, ha⟩ := Scope.foreign_call.1 h
    have hb : s.bare.functions.find? name = none := rfl
    simp only [Expr.eval, hn, hb, Expr.evalArgs_bare name args ha, Expr.evalAll_bare args ha]
    rfl
  | .vector x y z, h => by
    obtain ⟨hxy, hz⟩ := Scope.foreign_append.1 h
    obtain ⟨hx, hy⟩ := Scope.foreign_append.1 hxy
    simp only [Expr.eval, x.eval_bare _ hx, y.eval_bare _ hy, z.eval_bare _ hz]
  | .rotation x y z w, h => by
    obtain ⟨hxyz, hw⟩ := Scope.foreign_append.1 h
    obtain ⟨hxy, hz⟩ := Scope.foreign_append.1 hxyz
    obtain ⟨hx, hy⟩ := Scope.foreign_append.1 hxy
    simp only [Expr.eval, x.eval_bare _ hx, y.eval_bare _ hy, z.eval_bare _ hz, w.eval_bare _ hw]
  | .list items, h => by simp only [Expr.eval, Expr.evalAll_bare items h]
  | .component of axis, h => by simp only [Expr.eval, of.eval_bare _ h]
  | .subscript list index, h => by
    obtain ⟨hl, hi⟩ := Scope.foreign_append.1 h
    simp only [Expr.eval, list.eval_bare _ hl, index.eval_bare _ hi]
  | .slice list start stop, h => by
    obtain ⟨hls, hstop⟩ := Scope.foreign_append.1 h
    obtain ⟨hl, hstart⟩ := Scope.foreign_append.1 hls
    simp only [Expr.eval, list.eval_bare _ hl, start.eval_bare _ hstart, stop.eval_bare _ hstop]
  | .cast type operand, h => by simp only [Expr.eval, operand.eval_bare _ h]
  | .assign target op value, h => by
    obtain ⟨ht, hv⟩ := Scope.foreign_append.1 (Scope.foreign_store.1 h)
    simp only [Expr.eval, value.eval_bare _ hv, target.read_bare ht, target.write_bare ht]

theorem Target.read_bare : (t : Target) → s.Foreign t.deeds → t.read s.bare = t.read s
  | .variable name, _ => by rw [Target.read, Target.read]
  | .component name axis, _ => by rw [Target.read, Target.read]
  | .element name index, h => by simp only [Target.read, index.eval_bare _ h]

theorem Target.write_bare : (t : Target) → s.Foreign t.deeds → t.write s.bare = t.write s
  | .variable name, _ => by
    funext v
    rw [Target.write, Target.write]
  | .component name axis, _ => by
    funext v
    rw [Target.write, Target.write]
  | .element name index, h => by
    funext v
    simp only [Target.write, index.eval_bare _ h]

theorem Expr.evalAll_bare :
    (es : List Expr) → s.Foreign (deedsOf es) → Expr.evalAll s.bare es = Expr.evalAll s es
  | [], _ => by rw [Expr.evalAll, Expr.evalAll]
  | e :: es, h => by
    obtain ⟨he, hes⟩ := Scope.foreign_append.1 h
    simp only [Expr.evalAll, e.eval_bare _ he, Expr.evalAll_bare es hes]

theorem Expr.evalArgs_bare (callee : String) : (es : List Expr) → s.Foreign (deedsOf es) →
    ∀ number ts, Expr.evalArgs s.bare callee number ts es = Expr.evalArgs s callee number ts es
  | [], _, number, ts => by rw [Expr.evalArgs, Expr.evalArgs]
  | e :: es, h, number, ts => by
    obtain ⟨he, hes⟩ := Scope.foreign_append.1 h
    cases ts with
    | nil => simp only [Expr.evalArgs, e.eval_bare _ he, Expr.evalArgs_bare callee es hes]
    | cons t ts => simp only [Expr.evalArgs, e.eval_bare _ he, Expr.evalArgs_bare callee es hes]

end

end PrimScript
