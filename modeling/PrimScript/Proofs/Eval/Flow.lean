import PrimScript.Proofs.Eval.Ensures

/-! Blocks one statement at a time. -/

namespace PrimScript

theorem Eval.on_takeRequest {m : Machine} (h : m.requested = none) :
    takeRequest.on m = (.ok none, m) := by
  by_cases hd : m.stack.depth ≤ 1
  · simp [takeRequest, on_bind, h, hd]
  · simp [takeRequest, on_bind, hd]

def Eval.unlessRequested (next : Eval Flow) : Eval Flow := do
  match ← takeRequest with
  | some target => pure (.state target)
  | none => next

theorem Eval.on_unlessRequested {next : Eval Flow} {m : Machine} (h : m.requested = none) :
    (unlessRequested next).on m = next.on m := by
  rw [unlessRequested, on_bind, on_takeRequest h]

theorem Eval.on_unlessRequested_some {next : Eval Flow} {m : Machine} {target : String}
    (hd : m.stack.depth ≤ 1) (h : m.requested = some target) :
    (unlessRequested next).on m = (.ok (.state target), { m with requested := none }) := by
  simp [unlessRequested, takeRequest, on_bind, h, hd, -bind_pure_comp]

namespace Block

variable (b : Block)

def next (left pc : Nat) : Flow → Eval Flow
  | .normal => b.runFrom left (pc + 1) none
  | .jump label =>
    match b.label? label with
    | none => pure (.jump label)
    | some target =>
      if pc < target then b.runFrom left (target + 1) none
      else
        match left with
        | 0 => Flow.capped s!"jump to `{label}`" b.cap
        | left + 1 => b.runFrom left (target + 1) none
  | flow => pure flow

theorem runFrom_of_le {left pc : Nat} {first : Option Flow} (h : b.statements.size ≤ pc) :
    b.runFrom left pc first = pure .normal := by
  rw [runFrom, dif_neg (Nat.not_lt.2 h)]

theorem runFrom_some {left pc : Nat} {flow : Flow} (h : pc < b.statements.size) :
    b.runFrom left pc (some flow) = Eval.unlessRequested (b.next left pc flow) := by
  rw [runFrom, dif_pos h]
  cases flow <;> rfl

theorem runFrom_none {left pc : Nat} (h : pc < b.statements.size) :
    b.runFrom left pc none = b.statements[pc] none >>= fun flow => b.runFrom left pc (some flow) := by
  rw [runFrom, dif_pos h]
  change (b.statements[pc] none >>= _) = _
  apply bind_congr
  intro flow
  rw [runFrom_some b h]
  cases flow <;> rfl

/-- Every run from a place leads to runs from later places, or from any place with one jump less. -/
theorem runFrom_induction {P : Nat → Nat → Prop}
    (step : ∀ left pc, (∀ pc', pc < pc' → pc < b.statements.size → P left pc') →
      (∀ left' pc', left' < left → P left' pc') → P left pc) (left pc : Nat) : P left pc := by
  induction left using Nat.strongRecOn generalizing pc with
  | ind left ihl =>
    induction hn : b.statements.size - pc using Nat.strongRecOn generalizing pc with
    | ind n ihn =>
      apply step left pc
      · intro pc' h hpc
        exact ihn _ (by omega) pc' rfl
      · intro left' pc' h
        exact ihl left' h pc'

section Meets

open Eval

variable {b} {P : Machine → Prop} {F G : Flow → Machine → Prop} {X : Halt → Machine → Prop}
  (hb : ∀ (i : Nat) (hi : i < b.statements.size), Meets P F X (b.statements[i] none))
  (ht : ∀ f {next}, Meets (G f) G X next → Meets (F f) G X (unlessRequested next))
  (hg : ∀ {f m}, (∀ target, f ≠ .state target) → G f m → P m)
  (hn : ∀ m, P m → G .normal m) (hc : ∀ what cap, Meets P G X (Flow.capped what cap))
include hb ht hg hn hc

/-- A run from a place, whose first statement may have been run already.  The statements lead from `P`
to `F`, and looks for requests from there to `G`. -/
theorem meets_runFrom (left pc : Nat) :
    Meets P G X (b.runFrom left pc none) ∧
      ∀ f, pc < b.statements.size → Meets (F f) G X (b.runFrom left pc (some f)) := by
  induction left, pc using b.runFrom_induction with
  | step left pc ihp ihl =>
    have hsome (f : Flow) (hpc : pc < b.statements.size) :
        Meets (F f) G X (b.runFrom left pc (some f)) := by
      rw [b.runFrom_some hpc]
      apply ht
      cases f with
      | normal => exact (ihp (pc + 1) (by omega) hpc).1.mono (fun _ => hg (by simp)) fun _ _ => id
      | «break» => exact Meets.pure fun _ => id
      | «continue» => exact Meets.pure fun _ => id
      | «return» v => exact Meets.pure fun _ => id
      | state target => exact Meets.pure fun _ => id
      | jump label =>
        rw [next]
        cases b.label? label with
        | none => exact Meets.pure fun _ => id
        | some target =>
          refine Meets.mono (P := P) ?_ (fun _ => hg (by simp)) fun _ _ => id
          by_cases hlt : pc < target
          · simpa [hlt] using (ihp (target + 1) (by omega) hpc).1
          · cases left with
            | zero => simpa [hlt] using hc _ _
            | succ left => simpa [hlt] using (ihl left (target + 1) (by omega)).1
    refine ⟨?_, hsome⟩
    by_cases hpc : pc < b.statements.size
    · rw [b.runFrom_none hpc]
      exact Meets.bind (hb pc hpc) fun f => hsome f hpc
    · rw [b.runFrom_of_le (Nat.not_lt.1 hpc)]
      exact Meets.pure hn

theorem meets_run {entry : Entry}
    (hl : ∀ i path, entry = some (i :: path) → b.statements.size ≤ i →
      Meets P G X (Eval.fail (.lostIndex i)))
    (he : ∀ i path, entry = some (i :: path) → ∀ hi : i < b.statements.size,
      Meets P F X (b.statements[i] (some path))) : Meets P G X (b.run entry) := by
  unfold Block.run
  split
  · exact (meets_runFrom hb ht hg hn hc _ _).1
  · exact Meets.pure hn
  · next i path =>
    split
    · next hi => exact hl i path rfl (Array.getElem?_eq_none_iff.1 hi)
    · next statement hi =>
      obtain ⟨hlt, rfl⟩ := Array.getElem?_eq_some_iff.1 hi
      exact Meets.bind (he i path rfl hlt) fun f => (meets_runFrom hb ht hg hn hc _ _).2 f hlt

end Meets

end Block

end PrimScript
