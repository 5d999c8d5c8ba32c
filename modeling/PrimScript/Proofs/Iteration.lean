/-! Loops, given by their turns.  A turn comes to a result, or the loop goes on with another state.  Where a turn
may fail, as by looking beyond the end of a sequence, it comes to nothing, and neither does the loop. -/

namespace PrimScript

inductive Turn (σ ρ : Type)
  | done (r : ρ) : Turn σ ρ
  | next (s : σ) : Turn σ ρ

namespace Turn

variable {σ ρ : Type} {turn : σ → Option (Turn σ ρ)}

/-- From a state the loop ends with a result, and no turn has failed until then. -/
inductive Ends (turn : σ → Option (Turn σ ρ)) : σ → ρ → Prop
  | done {s : σ} {r : ρ} : turn s = some (.done r) → Ends turn s r
  | next {s s' : σ} {r : ρ} : turn s = some (.next s') → Ends turn s' r → Ends turn s r

theorem Ends.keeps {I : σ → Prop} {P : ρ → Prop} {s : σ} {r : ρ} (h : Ends turn s r)
    (done : ∀ s r, turn s = some (.done r) → I s → P r)
    (next : ∀ s s', turn s = some (.next s') → I s → I s') (hs : I s) : P r := by
  induction h with
  | done hturn => exact done _ _ hturn hs
  | next hturn _ ih => exact ih (next _ _ hturn hs)

/-- A loop ends with a value that no turn changes, when no turn fails and each leaves less to do. -/
theorem ends_of_kept (size : σ → Nat) (f : σ → ρ)
    (turns : ∀ s, turn s = some (.done (f s)) ∨
      ∃ s', turn s = some (.next s') ∧ f s' = f s ∧ size s' < size s) (s : σ) : Ends turn s (f s) := by
  induction h : size s using Nat.strongRecOn generalizing s with
  | ind n ih =>
    rcases turns s with hdone | ⟨s', hnext, hkept, hlt⟩
    · exact .done hdone
    · exact .next hnext (hkept ▸ ih _ (h ▸ hlt) s' rfl)

end Turn

end PrimScript
