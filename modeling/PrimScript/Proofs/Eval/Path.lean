import PrimScript.Eval.Stmt

/-! The ways to labels.  The path to a label leads to a statement at each of its steps, and the blocks on
it have that statement at the place the path names. -/

namespace PrimScript

theorem of_pathIn?_eq_some {name : String} {k : Nat} {ts : List Stmt} {path : List Nat}
    (h : pathIn? name k ts = some path) :
    ∃ i t rest, path = (k + i) :: rest ∧ ts[i]? = some t ∧ t.path? name = some rest := by
  induction ts generalizing k with
  | nil => cases h
  | cons t ts ih =>
    rw [pathIn?] at h
    rcases Option.or_eq_some_iff.1 h with h | ⟨-, h⟩
    · obtain ⟨rest, hrest, rfl⟩ := Option.map_eq_some_iff.1 h
      exact ⟨0, t, rest, rfl, rfl, hrest⟩
    · obtain ⟨i, u, rest, rfl, hi, hrest⟩ := ih h
      exact ⟨i + 1, u, rest, by rw [Nat.add_right_comm, Nat.add_assoc], hi, hrest⟩

namespace Stmt

theorem of_block_path?_eq_some {name : String} {body : List Stmt} {i : Nat} {path : List Nat}
    (h : (block body).path? name = some (i :: path)) :
    ∃ t, body[i]? = some t ∧ t.path? name = some path := by
  rw [path?] at h
  obtain ⟨j, t, rest, hp, ht, hrest⟩ := of_pathIn?_eq_some h
  rw [Nat.zero_add] at hp
  cases hp
  exact ⟨t, ht, hrest⟩

def Reaches (t : Stmt) (entry : Entry) : Prop := ∀ path ∈ entry, ∃ label, t.path? label = some path

theorem Reaches.of_ite {condition : Expr} {yes : Stmt} {no : Option Stmt} {path : List Nat}
    (h : (ite condition yes no).Reaches (some (0 :: path))) : yes.Reaches (some path) := by
  rintro _ ⟨⟩
  obtain ⟨label, hl⟩ := h _ rfl
  refine ⟨label, ?_⟩
  cases no with
  | none => simpa [path?] using hl
  | some no => simpa [path?, Option.or_eq_some_iff] using hl

theorem Reaches.of_else {condition : Expr} {yes no : Stmt} {path : List Nat}
    (h : (ite condition yes (some no)).Reaches (some (1 :: path))) : no.Reaches (some path) := by
  rintro _ ⟨⟩
  obtain ⟨label, hl⟩ := h _ rfl
  obtain ⟨-, hl⟩ : _ ∧ no.path? label = some path := by
    simpa [path?, Option.or_eq_some_iff] using hl
  exact ⟨label, hl⟩

theorem runs_eq_map (s : Scope) (ts : List Stmt) : runs s ts = ts.map (·.run s) := by
  induction ts with
  | nil => rfl
  | cons t ts ih => rw [runs, ih, List.map_cons]

end Stmt

namespace Scope

variable (s : Scope)

theorem size_block (body : List Stmt) :
    (s.block body (Stmt.runs s body)).statements.size = body.length := by
  simp [block, Stmt.runs_eq_map]

theorem getElem_block {body : List Stmt} {i : Nat} {t : Stmt} (ht : body[i]? = some t)
    (hi : i < (s.block body (Stmt.runs s body)).statements.size) :
    (s.block body (Stmt.runs s body)).statements[i] = t.run s := by
  obtain ⟨_, rfl⟩ := List.getElem?_eq_some_iff.1 ht
  simp [block, Stmt.runs_eq_map]

end Scope

end PrimScript
