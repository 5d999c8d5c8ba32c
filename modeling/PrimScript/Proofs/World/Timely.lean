import PrimScript.Proofs.World.Ledger

/-! What comes of timers and sweeps comes while what was noted when they were asked for still counts.
An epoch that has passed is as good as an alarm that was unset: the alarm may still go off, but its event
is refused. -/

namespace PrimScript

namespace EventQueue

theorem epoch_of_receive {q q' : EventQueue} {e : Event} (h : q.receive e = .ok q') :
    q'.epoch = q.epoch := by
  unfold receive at h
  split at h
  · cases h
  · split at h
    · cases h
      rfl
    · split at h
      · cases h
      · cases h
        rfl

theorem epoch_of_pop? {q q' : EventQueue} {e : Event} (h : q.pop? = some (e, q')) :
    q'.epoch = q.epoch := by
  unfold pop? at h
  split at h
  · cases h
    rfl
  · cases h
    rfl
  · cases h

end EventQueue

namespace World

variable {P : Event → Prop} {R : Prop} {N : History String → Prop} {w w' : World}

theorem Act.entered (h : Act P R w w') : w'.entered = w.entered := by
  cases h with
  | aside _ _ entered => exact entered
  | push => rfl
  | refuse => rfl
  | withdraw => rfl
  | close => rfl

theorem Acts.entered (h : Acts P R w w') : w'.entered = w.entered := by
  induction h with
  | refl => rfl
  | tail _ h ih => exact h.entered.trans ih

/-- What timers and sweeps have brought about, or still can, was asked for when `N` held of the states
entered. -/
structure Timely (N : History String → Prop) (w : World) : Prop where
  queued : w.Queued fun e => ∀ k, e.asked = some k → N k
  /-- No alarm is of an epoch to come. -/
  past : ∀ a ∈ w.alarms, ∀ x, a.task.asked? = some x → x.1 ≤ w.queue.epoch
  present : ∀ a ∈ w.alarms, ∀ k, a.task.asked? = some (w.queue.epoch, k) → N k

namespace Timely

theorem setQueue (h : w.Timely N) {q : EventQueue} (hq : q.epoch = w.queue.epoch)
    (hN : ∀ e ∈ q.toList, ∀ k, e.asked = some k → N k) : { w with queue := q }.Timely N where
  queued := hN
  past a ha x hx := hq ▸ h.past a ha x hx
  present a ha k hk := h.present a ha k (hq ▸ hk)

theorem act (h : Act P R w w') (hr : R → N w.entered) (hw : w.Timely N) : w'.Timely N := by
  cases h with
  | aside _ queue _ _ alarms =>
    refine ⟨fun e he => hw.queued e (queue ▸ he), fun a ha x hx => ?_, fun a ha k hk => ?_⟩
    · rw [queue]
      rcases alarms a ha with ⟨b, hb, hba⟩ | ⟨-, hnew⟩
      · exact hw.past b hb x (hba ▸ hx)
      · obtain ⟨-, rfl⟩ := hnew x hx
        exact Nat.le_refl _
    · rw [queue] at hk
      rcases alarms a ha with ⟨b, hb, hba⟩ | ⟨-, hnew⟩
      · exact hw.present b hb k (hba ▸ hk)
      -- A new alarm was set at this moment.
      · obtain ⟨hR, hx⟩ := hnew _ hk
        cases hx
        exact hr hR
  | push _ asked accepted =>
    refine hw.setQueue (EventQueue.epoch_of_receive accepted) (hw.queued.receive (fun k hk => ?_) accepted)
    rcases asked k hk with ⟨hR, rfl⟩ | ⟨a, ha, hka⟩
    · exact hr hR
    · exact hw.present a ha k hka
  | refuse e x => exact hw.setQueue rfl hw.queued
  | withdraw =>
    refine hw.setQueue rfl fun e he => ?_
    rw [EventQueue.toList_erase] at he
    exact hw.queued e (List.mem_filter.1 he).1
  | close => exact hw.setQueue rfl nofun

theorem acts (h : Acts P R w w') (hr : R → N w.entered) (hw : w.Timely N) : w'.Timely N := by
  induction h with
  | refl => exact hw
  | tail hs h ih => exact act h (fun hR => Acts.entered hs ▸ hr hR) ih

theorem acts_now (h : Acts P R w w') (hw : w.Timely (· = w.entered)) :
    w'.Timely (· = w'.entered) := by
  rw [h.entered]
  exact hw.acts h fun _ => rfl

theorem pop (hw : w.Timely N) {e : Event} {q : EventQueue} (hq : w.queue.pop? = some (e, q)) :
    { w with queue := q }.Timely N ∧ ∀ k, e.asked = some k → N k := by
  have hall := hw.queued
  rw [Queued, EventQueue.toList_of_pop? hq, List.forall_mem_cons] at hall
  exact ⟨hw.setQueue (EventQueue.epoch_of_pop? hq) hall.2, hall.1⟩

theorem nextEpoch (hw : w.Timely N) :
    { w with queue := w.queue.nextEpoch }.Timely fun _ => False where
  queued := nofun
  past a ha x hx := Nat.le_succ_of_le (hw.past a ha x hx)
  present a ha _ hk := Nat.not_succ_le_self _ (hw.past a ha _ hk)

theorem enter (hw : w.Timely fun _ => False) (entered : History String) :
    { w with entered := entered }.Timely (· = entered) where
  queued e he k hk := (hw.queued e he k hk).elim
  past := hw.past
  present a ha k hk := (hw.present a ha k hk).elim

end Timely

end World

end PrimScript
