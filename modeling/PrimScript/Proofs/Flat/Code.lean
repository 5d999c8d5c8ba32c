import Mathlib.Data.List.Nodup
import PrimScript.Proofs.Eval.Path
import PrimScript.Proofs.Flat.Basic

/-! Pieces of flat code, and the labels in it: a body and its code have the same labels, and those that
can be reached along a path have a place. -/

namespace PrimScript

open Flat

mutual

def Stmt.labels : Stmt → List String
  | .label name => [name]
  | .ite _ yes none => yes.labels
  | .ite _ yes (some no) => yes.labels ++ no.labels
  | .while _ body => body.labels
  | .doWhile body _ => body.labels
  | .for _ _ _ body => body.labels
  | .block body => Stmt.labelsIn body
  | _ => []

def Stmt.labelsIn : List Stmt → List String
  | [] => []
  | t :: ts => t.labels ++ Stmt.labelsIn ts

end

mutual

@[simp] theorem Stmt.length_lower (pos : Nat) (x : Exits) :
    (t : Stmt) → (t.lower pos x).length = t.size
  | .ite _ yes none => by
    simp [Stmt.lower, Stmt.size, yes.length_lower]
  | .ite _ yes (some no) => by
    simp only [Stmt.lower, Stmt.size, List.length_cons, List.length_append, yes.length_lower,
      no.length_lower]
    omega
  | .while _ body | .doWhile body _ | .for _ _ _ body => by
    simp [Stmt.lower, Stmt.size, body.length_lower]
  | .block body => by
    simp [Stmt.lower, Stmt.size, Stmt.length_lowers]
  | .declare _ _ _ | .assign _ _ _ | .expr _ | .return _ | .state _ | .jump _ | .label _
  | .break | .continue | .empty => by
    simp [Stmt.lower, Stmt.size]

@[simp] theorem Stmt.length_lowers (pos : Nat) (x : Exits) :
    (ts : List Stmt) → (Stmt.lowers pos x ts).length = Stmt.sizes ts
  | [] => rfl
  | t :: ts => by
    simp [Stmt.lowers, Stmt.sizes, t.length_lower, Stmt.length_lowers]

end

mutual

@[simp] theorem Stmt.labels_lower (pos : Nat) (x : Exits) :
    (t : Stmt) → (t.lower pos x).filterMap Instr.label? = t.labels
  | .ite _ yes none => by
    simp [Stmt.lower, Stmt.labels, List.filterMap_cons, Instr.label?,
      yes.labels_lower]
  | .ite _ yes (some no) => by
    simp [Stmt.lower, Stmt.labels, List.filterMap_cons, Instr.label?,
      yes.labels_lower, no.labels_lower]
  | .while _ body | .doWhile body _ | .for _ _ _ body => by
    simp [Stmt.lower, Stmt.labels, List.filterMap_cons, Instr.label?,
      body.labels_lower]
  | .block body => by
    simp [Stmt.lower, Stmt.labels, Stmt.labels_lowers]
  | .declare _ _ _ | .assign _ _ _ | .expr _ | .return _ | .state _ | .jump _ | .label _
  | .break | .continue | .empty => by
    simp [Stmt.lower, Stmt.labels, List.filterMap_cons, Instr.label?]

@[simp] theorem Stmt.labels_lowers (pos : Nat) (x : Exits) :
    (ts : List Stmt) → (Stmt.lowers pos x ts).filterMap Instr.label? = Stmt.labelsIn ts
  | [] => rfl
  | t :: ts => by
    simp [Stmt.lowers, Stmt.labelsIn, t.labels_lower, Stmt.labels_lowers]

end

mutual

theorem Stmt.isSome_path? (name : String) :
    (t : Stmt) → (t.path? name).isSome = true ↔ name ∈ t.labels
  | .label n => by
    by_cases h : n = name
    · simp [Stmt.path?, Stmt.labels, h]
    · simp [Stmt.path?, Stmt.labels, h, Ne.symm h]
  | .ite _ yes none => by
    simp [Stmt.path?, Stmt.labels, yes.isSome_path?]
  | .ite _ yes (some no) => by
    simp [Stmt.path?, Stmt.labels, yes.isSome_path?, no.isSome_path?]
  | .while _ body | .doWhile body _ | .for _ _ _ body => by
    simp [Stmt.path?, Stmt.labels, body.isSome_path?]
  | .block body => by
    simp [Stmt.path?, Stmt.labels, Stmt.isSome_pathIn?]
  | .declare _ _ _ | .assign _ _ _ | .expr _ | .return _ | .state _ | .jump _
  | .break | .continue | .empty => by
    simp [Stmt.path?, Stmt.labels]

theorem Stmt.isSome_pathIn? (name : String) (i : Nat) :
    (ts : List Stmt) → (pathIn? name i ts).isSome = true ↔ name ∈ Stmt.labelsIn ts
  | [] => by simp [pathIn?, Stmt.labelsIn]
  | t :: ts => by
    simp [pathIn?, Stmt.labelsIn, t.isSome_path?, Stmt.isSome_pathIn? name (i + 1) ts]

end

theorem of_labelIndex?_eq_some {name : String} {ts : List Stmt} {i : Nat}
    (h : labelIndex? ts name = some i) : ts[i]? = some (.label name) := by
  obtain ⟨hi, ht, -⟩ := List.findIdx?_eq_some_iff_getElem.1 h
  rw [List.getElem?_eq_getElem hi]
  split at ht
  · next n hn =>
    rw [hn, of_decide_eq_true ht]
  · cases ht

theorem Stmt.sizes_take_succ {ts : List Stmt} {i : Nat} {t : Stmt} (h : ts[i]? = some t) :
    Stmt.sizes (ts.take (i + 1)) = Stmt.sizes (ts.take i) + t.size := by
  induction ts generalizing i with
  | nil => cases h
  | cons u ts ih =>
    cases i with
    | zero =>
      cases h
      simp [Stmt.sizes]
    | succ i => simp [Stmt.sizes, ih h, Nat.add_assoc]

namespace Flat

variable {code piece piece' : List Instr} {pos : Nat} {i : Instr}

def CodeAt (code : List Instr) (pos : Nat) (piece : List Instr) : Prop :=
  piece <+: code.drop pos

namespace CodeAt

theorem head (h : CodeAt code pos (i :: piece)) : code[pos]? = some i := by
  obtain ⟨rest, hr⟩ := h
  rw [← Nat.add_zero pos, ← List.getElem?_drop, ← hr]
  rfl

theorem tail (h : CodeAt code pos (i :: piece)) : CodeAt code (pos + 1) piece := by
  obtain ⟨rest, hr⟩ := h
  refine ⟨rest, ?_⟩
  rw [← List.tail_drop, ← hr]
  rfl

theorem left (h : CodeAt code pos (piece ++ piece')) : CodeAt code pos piece :=
  (List.prefix_append _ _).trans h

theorem right {n : Nat} (h : CodeAt code pos (piece ++ piece')) (hn : n = pos + piece.length) :
    CodeAt code n piece' := by
  obtain ⟨rest, hr⟩ := h
  refine ⟨rest, ?_⟩
  rw [hn, ← List.drop_drop, ← hr, List.append_assoc, List.drop_left]

theorem statement {x : Exits} {ts : List Stmt} {j : Nat} {t : Stmt}
    (h : CodeAt code pos (Stmt.lowers pos x ts)) (ht : ts[j]? = some t) :
    CodeAt code (pos + Stmt.sizes (ts.take j)) (t.lower (pos + Stmt.sizes (ts.take j)) x) := by
  induction ts generalizing pos j with
  | nil => cases ht
  | cons u ts ih =>
    cases j with
    | zero =>
      cases ht
      exact h.left
    | succ j =>
      have hr := h.right (n := pos + u.size) (by rw [u.length_lower])
      simpa [Stmt.sizes, Nat.add_assoc] using ih hr ht

end CodeAt

theorem codeAt_program (body : List Stmt) :
    CodeAt (program body) 0 (Stmt.lowers 0 ⟨none, none⟩ body) := List.prefix_rfl

def Distinct (code : List Instr) : Prop := (code.filterMap Instr.label?).Nodup

theorem isSome_place? {label : String} :
    (place? code label).isSome = true ↔ label ∈ code.filterMap Instr.label? := by
  simp [place?, List.mem_filterMap]

theorem Distinct.place? {label : String} (h : Distinct code) (hp : code[pos]? = some i)
    (hi : i.label? = some label) : place? code label = some pos := by
  induction code generalizing pos with
  | nil => cases hp
  | cons j code ih =>
    cases pos with
    | zero =>
      cases hp
      simp [Flat.place?, hi, List.findIdx?_cons]
    | succ pos =>
      have hmem : label ∈ code.filterMap Instr.label? :=
        List.mem_filterMap.2 ⟨i, List.mem_of_getElem? hp, hi⟩
      have hj : j.label? ≠ some label := by
        intro hj
        rw [Distinct, List.filterMap_cons_some hj] at h
        exact (List.nodup_cons.1 h).1 hmem
      have hc : Distinct code := List.Nodup.sublist ((List.sublist_cons_self _ _).filterMap _) h
      have hf := ih hc hp
      unfold Flat.place? at hf ⊢
      simp [List.findIdx?_cons, hj, hf]

theorem distinct_program {body : List Stmt} (h : (Stmt.labelsIn body).Nodup) :
    Distinct (program body) := by
  rw [Distinct, program, Stmt.labels_lowers]
  exact h

theorem isSome_place?_program (body : List Stmt) (label : String) :
    (place? (program body) label).isSome = (pathIn? label 0 body).isSome := by
  rw [Bool.eq_iff_iff, isSome_place?, program, Stmt.labels_lowers, Stmt.isSome_pathIn?]

end Flat

end PrimScript
