import PrimScript.Event.Basic
import PrimScript.Proofs.Value.WellFormed

/-! Events as the catalog has them: with as many arguments as it lists for their kind, and of the types it
lists.  Variables of those types keep the arguments as they are. -/

namespace PrimScript

namespace Value

/-- A variable of the value's own type keeps it as it is. -/
def Stays (v : Value) : Prop := v.coerce v.type = v

theorem WellFormed.stays {v : Value} (h : v.WellFormed) : v.Stays := by
  cases v with
  | key k =>
    change ofKey k = .key k
    rw [ofKey, Key.normalize_of_isCanonical h]
  | _ => rfl

theorem stays_of_ne {v : Value} (h : v.type ≠ .key) : v.Stays := by
  cases v with
  | key k => exact absurd rfl h
  | _ => rfl

theorem stays_coerce (t : ValueType) (v : Value) : (v.coerce t).Stays := by
  by_cases h : t = .list
  · exact stays_of_ne (by rw [type_coerce, h]; nofun)
  · exact (wellFormed_coerce_of_ne h v).stays

theorem stays_zero (t : ValueType) : (zero t).Stays :=
  (closed_wellFormed.zero t).stays

end Value

def Event.Conforms (e : Event) : Prop := e.args.map Value.type = e.kind.params

namespace Event

variable {e : Event}

theorem types_conform (ts : List ValueType) (vs : List Value) :
    (conform ts vs).map Value.type = ts := by
  induction ts generalizing vs with
  | nil => rfl
  | cons t ts ih =>
    cases vs with
    | nil => simp [conform, ih]
    | cons v vs => simp [conform, ih]

theorem stays_of_mem_conform {ts : List ValueType} {vs : List Value} :
    ∀ v ∈ conform ts vs, v.Stays := by
  induction ts generalizing vs with
  | nil => exact nofun
  | cons t ts ih =>
    cases vs with
    | nil => exact List.forall_mem_cons.2 ⟨Value.stays_zero t, ih⟩
    | cons v vs => exact List.forall_mem_cons.2 ⟨Value.stays_coerce t v, ih⟩

/-- An event as the catalog has it, with arguments that variables of their types keep as they are. -/
structure Fitting (e : Event) : Prop where
  conforms : e.Conforms
  stays : ∀ v ∈ e.args, v.Stays

theorem fitting_of_named {name : String} {args : List Value} (h : named name args = .ok e) :
    e.Fitting := by
  unfold named at h
  split at h
  · next kind _ =>
    cases h
    exact ⟨types_conform kind.params args, stays_of_mem_conform⟩
  · cases h

theorem conforms_sweepEvent (found : List Entity) : (sweepEvent found).Conforms := by
  unfold sweepEvent
  split
  · rfl
  · rfl

end Event

end PrimScript
