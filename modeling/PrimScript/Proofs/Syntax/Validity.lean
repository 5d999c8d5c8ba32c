import PrimScript.Syntax.Validity

/-! What validity promises: a valid script has the state it starts in and all states that its handlers and
functions go over to. -/

namespace PrimScript

theorem Except.bind_eq_ok_iff {α β ε : Type} {x : Except ε α} {f : α → Except ε β} {b : β} :
    x >>= f = .ok b ↔ ∃ a, x = .ok a ∧ f a = .ok b := by
  cases x <;> simp [bind, Except.bind]

theorem List.forM_eq_ok_iff {α ε : Type} {f : α → Except ε Unit} {l : List α} :
    l.forM f = .ok () ↔ ∀ x ∈ l, f x = .ok () := by
  induction l with
  | nil => simp [pure, Except.pure]
  | cons x l ih =>
    change f x >>= (fun _ => l.forM f) = .ok () ↔ _
    rw [Except.bind_eq_ok_iff, List.forall_mem_cons, ← ih]
    exact ⟨fun ⟨_, hx, hl⟩ => ⟨hx, hl⟩, fun ⟨hx, hl⟩ => ⟨(), hx, hl⟩⟩

namespace Script

variable {s : Script}

def Covers (s : Script) (body : List Stmt) : Prop :=
  ∀ target ∈ targetsOfBody body, s.states.contains target

theorem checkTargets_eq_ok_iff {body : List Stmt} :
    s.checkTargets body = .ok () ↔ s.Covers body := by
  unfold checkTargets Covers
  split
  · next name h =>
    have hn := List.find?_some h
    have hm := List.mem_of_find?_eq_some h
    simp only [reduceCtorEq, false_iff]
    intro hall
    simp [hall name hm] at hn
  · next h => simpa using h

theorem covers_of_checkHandler {state event : String} {h : Handler}
    (hc : s.checkHandler state event h = .ok ()) : s.Covers h.body := by
  unfold checkHandler at hc
  split at hc
  · cases hc
  · next kind _ =>
    split at hc
    · cases hc
    · obtain ⟨_, -, hc⟩ := Except.bind_eq_ok_iff.1 hc
      exact checkTargets_eq_ok_iff.1 hc

theorem types_of_checkParams {state event : String} {ps : List Param} {ts : List ValueType}
    (hl : ps.length = ts.length) (h : checkParams state event ps ts = .ok ()) :
    ps.map Param.type = ts := by
  induction ps generalizing ts with
  | nil => exact (List.length_eq_zero_iff.1 hl.symm).symm
  | cons p ps ih =>
    cases ts with
    | nil => cases hl
    | cons t ts =>
      rw [checkParams] at h
      split at h
      · next ht => rw [List.map_cons, ht, ih (Nat.succ.inj hl) h]
      · cases h

theorem types_of_checkHandler {state : String} {kind : EventKind} {h : Handler}
    (hc : s.checkHandler state kind.name h = .ok ()) : h.params.map Param.type = kind.params := by
  rw [checkHandler, EventKind.ofName?_name] at hc
  dsimp only at hc
  split at hc
  · cases hc
  · next hl =>
    obtain ⟨_, hp, -⟩ := Except.bind_eq_ok_iff.1 hc
    exact types_of_checkParams (Decidable.not_not.1 hl) hp

theorem checkHandler_of_validate (hv : s.validate = .ok ()) {state event : String} {h : Handler}
    (hh : s.handler? state event = some h) : s.checkHandler state event h = .ok () := by
  unfold validate at hv
  split at hv
  · obtain ⟨_, hs, -⟩ := Except.bind_eq_ok_iff.1 hv
    obtain ⟨handlers, hst, hev⟩ := Option.bind_eq_some_iff.1 hh
    have hall := List.forM_eq_ok_iff.1 (List.forM_eq_ok_iff.1 hs _ (NameMap.mem_of_find? hst))
    exact hall _ (NameMap.mem_of_find? hev)
  · cases hv

structure Closed (s : Script) : Prop where
  default : s.states.contains defaultState
  handler : ∀ {state event h}, s.handler? state event = some h → s.Covers h.body
  function : ∀ {name f}, s.functions.find? name = some f → s.Covers f.body

theorem closed_of_validate (h : s.validate = .ok ()) : s.Closed := by
  have hh {state event k} (hk : s.handler? state event = some k) : s.Covers k.body :=
    covers_of_checkHandler (checkHandler_of_validate h hk)
  unfold validate at h
  split at h
  · next hd =>
    obtain ⟨_, -, hf⟩ := Except.bind_eq_ok_iff.1 h
    rw [List.forM_eq_ok_iff] at hf
    exact ⟨hd, hh, fun hn => checkTargets_eq_ok_iff.1 (hf _ (NameMap.mem_of_find? hn))⟩
  · cases h

end Script

end PrimScript
