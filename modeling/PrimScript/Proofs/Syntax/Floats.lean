import PrimScript.Proofs.Json.Text
import PrimScript.Syntax.Stored

/-! The floating point literals of a script.  When each of them is read back from its own text, the
stored script is read back from its text. -/

namespace PrimScript

open Json

mutual

def Expr.floats : Expr → List Float
  | .literal (.float x) => [x]
  | .literal _ => []
  | .ident _ => []
  | .binary _ left right => left.floats ++ right.floats
  | .unary _ operand => operand.floats
  | .step _ _ target => target.floats
  | .call _ args => Expr.eachFloats args
  | .vector x y z => x.floats ++ (y.floats ++ z.floats)
  | .rotation x y z s => x.floats ++ (y.floats ++ (z.floats ++ s.floats))
  | .list items => Expr.eachFloats items
  | .component of _ => of.floats
  | .subscript list index => list.floats ++ index.floats
  | .slice list start stop => list.floats ++ (start.floats ++ stop.floats)
  | .cast _ operand => operand.floats
  | .assign target _ value => target.floats ++ value.floats

def Target.floats : Target → List Float
  | .variable _ => []
  | .component _ _ => []
  | .element _ index => index.floats

def Expr.eachFloats : List Expr → List Float
  | [] => []
  | e :: es => e.floats ++ Expr.eachFloats es

end

def Expr.optionFloats (e? : Option Expr) : List Float := (e?.map Expr.floats).getD []

mutual

def Stmt.floats : Stmt → List Float
  | .declare _ _ init => Expr.optionFloats init
  | .assign target _ value => target.floats ++ value.floats
  | .expr e => e.floats
  | .ite condition thenBranch none => condition.floats ++ thenBranch.floats
  | .ite condition thenBranch (some elseBranch) =>
    condition.floats ++ (thenBranch.floats ++ elseBranch.floats)
  | .while condition body => condition.floats ++ body.floats
  | .doWhile body condition => body.floats ++ condition.floats
  | .for init condition step body =>
    Expr.eachFloats init ++
      (Expr.optionFloats condition ++ (Expr.eachFloats step ++ body.floats))
  | .return value => Expr.optionFloats value
  | .block body => Stmt.eachFloats body
  | _ => []

def Stmt.eachFloats : List Stmt → List Float
  | [] => []
  | s :: ss => s.floats ++ Stmt.eachFloats ss

end

def Script.floats (s : Script) : List Float :=
  s.globals.flatMap (fun g => Expr.optionFloats g.init) ++
    (s.functions.flatMap (fun (_, f) => Stmt.eachFloats f.body) ++
      s.states.flatMap fun (_, handlers) => handlers.flatMap fun (_, h) => Stmt.eachFloats h.body)

def Rereads (x : Float) : Prop := readChars? (floatText x) = some (.num x)

section
variable {kind name : String} {j : Json} {fields fields' : List (String × Json)} {js : List Json}

theorem exactItems_map {α : Type} {enc : α → Json} {xs : List α} (h : ∀ x ∈ xs, (enc x).Exact) :
    ExactItems (xs.map enc) := by
  induction xs with
  | nil => trivial
  | cons x xs ih =>
    rw [List.forall_mem_cons] at h
    exact ⟨h.1, ih h.2⟩

theorem exactFields_map {α : Type} {enc : α → String × Json} {xs : List α}
    (h : ∀ x ∈ xs, (enc x).2.Exact) : ExactFields (xs.map enc) := by
  induction xs with
  | nil => trivial
  | cons x xs ih =>
    rw [List.forall_mem_cons] at h
    exact ⟨h.1, ih h.2⟩

theorem exact_tagged (h : ExactFields fields) : (tagged kind fields).Exact := ⟨trivial, h⟩

theorem exactFields_append (h : ExactFields fields) (h' : ExactFields fields') :
    ExactFields (fields ++ fields') := by
  induction fields with
  | nil => exact h'
  | cons f fields ih => exact ⟨h.1, ih h.2⟩

theorem exactFields_optional {j? : Option Json} (h : ∀ j ∈ j?, Exact j) :
    ExactFields (optionalField name j?) := by
  cases j? with
  | none => trivial
  | some j => exact ⟨h j rfl, trivial⟩

end

theorem Literal.exact {v : Literal} (h : ∀ x ∈ (Expr.literal v).floats, Rereads x) :
    v.toJson.Exact := by
  cases v with
  | integer n =>
    have low := n.le_toInt
    have high := n.toInt_lt
    exact ⟨⟨by omega, by omega⟩, trivial⟩
  | float x => exact ⟨h x (by simp [Expr.floats]), trivial⟩
  | string s => exact ⟨trivial, trivial⟩

mutual

theorem Expr.exact : (e : Expr) → (∀ x ∈ e.floats, Rereads x) → e.toJson.Exact
  | .literal v, h => exact_tagged ⟨Literal.exact h, trivial⟩
  | .ident _, _ => exact_tagged ⟨trivial, trivial⟩
  | .binary _ l r, h => by
    obtain ⟨hl, hr⟩ := List.forall_mem_append.mp h
    exact exact_tagged ⟨trivial, l.exact hl, r.exact hr, trivial⟩
  | .unary _ operand, h => exact_tagged ⟨trivial, operand.exact h, trivial⟩
  | .step _ _ target, h => exact_tagged ⟨trivial, trivial, target.exact h, trivial⟩
  | .call _ args, h => exact_tagged ⟨trivial, Expr.each_exact args h, trivial⟩
  | .vector x y z, h => by
    obtain ⟨hx, h⟩ := List.forall_mem_append.mp h
    obtain ⟨hy, hz⟩ := List.forall_mem_append.mp h
    exact exact_tagged ⟨x.exact hx, y.exact hy, z.exact hz, trivial⟩
  | .rotation x y z s, h => by
    obtain ⟨hx, h⟩ := List.forall_mem_append.mp h
    obtain ⟨hy, h⟩ := List.forall_mem_append.mp h
    obtain ⟨hz, hs⟩ := List.forall_mem_append.mp h
    exact exact_tagged ⟨x.exact hx, y.exact hy, z.exact hz, s.exact hs, trivial⟩
  | .list items, h => exact_tagged ⟨Expr.each_exact items h, trivial⟩
  | .component of _, h => exact_tagged ⟨of.exact h, trivial, trivial⟩
  | .subscript list index, h => by
    obtain ⟨hl, hi⟩ := List.forall_mem_append.mp h
    exact exact_tagged ⟨list.exact hl, index.exact hi, trivial⟩
  | .slice list start stop, h => by
    obtain ⟨hl, h⟩ := List.forall_mem_append.mp h
    obtain ⟨ha, hb⟩ := List.forall_mem_append.mp h
    exact exact_tagged ⟨list.exact hl, start.exact ha, stop.exact hb, trivial⟩
  | .cast _ operand, h => exact_tagged ⟨trivial, operand.exact h, trivial⟩
  | .assign target _ value, h => by
    obtain ⟨ht, hv⟩ := List.forall_mem_append.mp h
    exact exact_tagged ⟨target.exact ht, trivial, value.exact hv, trivial⟩

theorem Target.exact : (t : Target) → (∀ x ∈ t.floats, Rereads x) → t.toJson.Exact
  | .variable _, _ => exact_tagged ⟨trivial, trivial⟩
  | .component _ _, _ => exact_tagged ⟨trivial, trivial, trivial⟩
  | .element _ index, h => exact_tagged ⟨trivial, index.exact h, trivial⟩

theorem Expr.each_exact : (es : List Expr) → (∀ x ∈ Expr.eachFloats es, Rereads x) →
    ExactItems (exprsToJson es)
  | [], _ => trivial
  | e :: es, h => by
    obtain ⟨he, hes⟩ := List.forall_mem_append.mp h
    exact ⟨e.exact he, Expr.each_exact es hes⟩

end

theorem Expr.option_exact {e? : Option Expr} (h : ∀ x ∈ Expr.optionFloats e?, Rereads x) :
    ∀ j ∈ e?.map Expr.toJson, Exact j := by
  cases e? with
  | none => simp
  | some e => simpa using e.exact h

mutual

theorem Stmt.exact : (s : Stmt) → (∀ x ∈ s.floats, Rereads x) → s.toJson.Exact
  | .declare _ _ _, h =>
    exact_tagged ⟨trivial, trivial, exactFields_optional (Expr.option_exact h)⟩
  | .assign target _ value, h => by
    obtain ⟨ht, hv⟩ := List.forall_mem_append.mp h
    exact exact_tagged ⟨target.exact ht, trivial, value.exact hv, trivial⟩
  | .expr e, h => exact_tagged ⟨e.exact h, trivial⟩
  | .ite condition thenBranch none, h => by
    obtain ⟨hc, ht⟩ := List.forall_mem_append.mp h
    exact exact_tagged ⟨condition.exact hc, thenBranch.exact ht, trivial⟩
  | .ite condition thenBranch (some elseBranch), h => by
    obtain ⟨hc, h⟩ := List.forall_mem_append.mp h
    obtain ⟨ht, he⟩ := List.forall_mem_append.mp h
    exact exact_tagged ⟨condition.exact hc, thenBranch.exact ht, elseBranch.exact he, trivial⟩
  | .while condition body, h => by
    obtain ⟨hc, hb⟩ := List.forall_mem_append.mp h
    exact exact_tagged ⟨condition.exact hc, body.exact hb, trivial⟩
  | .doWhile body condition, h => by
    obtain ⟨hb, hc⟩ := List.forall_mem_append.mp h
    exact exact_tagged ⟨body.exact hb, condition.exact hc, trivial⟩
  | .for init _ step body, h => by
    obtain ⟨hi, h⟩ := List.forall_mem_append.mp h
    obtain ⟨hc, h⟩ := List.forall_mem_append.mp h
    obtain ⟨hs, hb⟩ := List.forall_mem_append.mp h
    exact exact_tagged ⟨Expr.each_exact init hi,
      exactFields_append (exactFields_optional (Expr.option_exact hc))
        ⟨Expr.each_exact step hs, body.exact hb, trivial⟩⟩
  | .return _, h => exact_tagged (exactFields_optional (Expr.option_exact h))
  | .state _, _ => exact_tagged ⟨trivial, trivial⟩
  | .jump _, _ => exact_tagged ⟨trivial, trivial⟩
  | .label _, _ => exact_tagged ⟨trivial, trivial⟩
  | .block body, h => exact_tagged ⟨Stmt.each_exact body h, trivial⟩
  | .break, _ => exact_tagged trivial
  | .continue, _ => exact_tagged trivial
  | .empty, _ => exact_tagged trivial

theorem Stmt.each_exact : (body : List Stmt) → (∀ x ∈ Stmt.eachFloats body, Rereads x) →
    ExactItems (bodyToJson body)
  | [], _ => trivial
  | s :: ss, h => by
    obtain ⟨hs, hss⟩ := List.forall_mem_append.mp h
    exact ⟨s.exact hs, Stmt.each_exact ss hss⟩

end

theorem exact_params (params : List Param) : ExactItems (params.map Param.toJson) :=
  exactItems_map fun _ _ => ⟨trivial, trivial, trivial⟩

theorem Script.exact {s : Script} (h : ∀ x ∈ s.floats, Rereads x) : s.toJson.Exact := by
  obtain ⟨hglobals, h⟩ := List.forall_mem_append.mp h
  obtain ⟨hfunctions, hstates⟩ := List.forall_mem_append.mp h
  simp only [List.forall_mem_flatMap] at hglobals hfunctions hstates
  have globals : ∀ g ∈ s.globals, g.toJson.Exact := fun g hg =>
    ⟨trivial, trivial, exactFields_optional (Expr.option_exact (hglobals g hg))⟩
  have functions : ∀ f ∈ s.functions, f.2.toJson.Exact := by
    intro f hf
    refine ⟨?_, exact_params _, Stmt.each_exact _ (hfunctions f hf), trivial⟩
    cases f.2.returns <;> trivial
  have states : ∀ e ∈ s.states,
      (Json.obj (e.2.map fun (event, h) => (event, h.toJson))).Exact := fun e he =>
    exactFields_map fun h hh => ⟨exact_params _, Stmt.each_exact _ (hstates e he h hh), trivial⟩
  exact ⟨exactItems_map globals, exactFields_map functions, exactFields_map states, trivial⟩

end PrimScript
