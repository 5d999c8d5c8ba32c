import PrimScript.Proofs.Event.Ledger
import PrimScript.Proofs.World.Acts

/-! What acts in the world do to the event queue: it is neither popped nor cleared, and no event of
high priority is pushed. -/

namespace PrimScript

variable {P Q : Event → Prop} {R : Prop}

def QueueChange.Foreign : QueueChange → Prop
  | .accepted e => e.high = false
  | .withdrawn kind => kind = .timer
  | .closed => True
  | .popped => False
  | .cleared => False

namespace World

/-- The queue has changed in ways that are not the main loop's. -/
def Disturbed (w w' : World) : Prop :=
  ∃ cs, w'.queue.past.toList = w.queue.past.toList ++ cs ∧ ∀ c ∈ cs, c.Foreign

theorem Disturbed.of_past_eq {w w' : World} (h : w'.queue.past = w.queue.past) : Disturbed w w' :=
  ⟨[], by rw [h, List.append_nil], by simp⟩

theorem Disturbed.of_push {w w' : World} {c : QueueChange}
    (h : w'.queue.past = w.queue.past.push c) (hc : c.Foreign) : Disturbed w w' :=
  ⟨[c], by rw [h, History.toList_push], by simpa using hc⟩

theorem Disturbed.trans {w w' w'' : World} (h : Disturbed w w') (h' : Disturbed w' w'') :
    Disturbed w w'' := by
  obtain ⟨cs, hp, hc⟩ := h
  obtain ⟨ds, hp', hd⟩ := h'
  refine ⟨cs ++ ds, by rw [hp', hp, List.append_assoc], ?_⟩
  intro c hm
  exact (List.mem_append.1 hm).elim (hc c) (hd c)

def Queued (Q : Event → Prop) (w : World) : Prop := ∀ e ∈ w.queue.toList, Q e

theorem Queued.receive {w : World} (h : w.Queued Q) {e : Event} (he : Q e) {q : EventQueue}
    (hq : w.queue.receive e = .ok q) : (∀ e ∈ q.toList, Q e) := by
  have hm : ∀ x ∈ q.toList, x ∈ w.queue.toList ∨ x = e := by
    unfold EventQueue.receive at hq
    split at hq
    · cases hq
    · split at hq
      · cases hq
        simp only [EventQueue.toList, List.mem_append, List.mem_singleton]
        tauto
      · split at hq
        · cases hq
        · cases hq
          simp only [EventQueue.toList, List.mem_append, List.mem_singleton]
          tauto
  intro x hx
  rcases hm x hx with hx | rfl
  · exact h x hx
  · exact he

def Took (Q : Event → Prop) (w : World) : Prop := ∀ e ∈ w.queue.accepted, Q e

theorem Took.receive {w : World} (h : w.Took Q) {e : Event} (he : Q e) {q : EventQueue}
    (hq : w.queue.receive e = .ok q) : ∀ e ∈ q.accepted, Q e := by
  rw [EventQueue.accepted_of_receive hq, List.forall_mem_append]
  exact ⟨h, by simpa using he⟩

section Act

variable {w w' : World} (h : Act P R w w')
include h

theorem Act.disturbed (hP : ∀ e, P e → e.high = false) : Disturbed w w' := by
  cases h with
  | aside _ queue => exact .of_past_eq (congrArg EventQueue.past queue)
  | push holds _ accepted => exact .of_push (EventQueue.past_of_receive accepted) (hP _ holds)
  | refuse => exact .of_past_eq rfl
  | withdraw => exact .of_push rfl rfl
  | close => exact .of_push rfl trivial

theorem Act.accounted (hw : w.queue.Accounted) : w'.queue.Accounted := by
  cases h with
  | aside _ queue => exact queue ▸ hw
  | push holds _ accepted => exact hw.receive accepted
  | refuse e x => exact hw.refuse e x
  | withdraw => exact hw.erase .timer
  | close => exact w.queue.accounted_close

theorem Act.queued (hPQ : ∀ e, P e → Q e) (hw : w.Queued Q) : w'.Queued Q := by
  cases h with
  | aside _ queue =>
    intro e he
    rw [queue] at he
    exact hw e he
  | push holds _ accepted => exact hw.receive (hPQ _ holds) accepted
  | refuse => exact hw
  | withdraw =>
    intro e he
    rw [EventQueue.toList_erase] at he
    exact hw e (List.mem_filter.1 he).1
  | close => exact nofun

theorem Act.took (hPQ : ∀ e, P e → Q e) (hw : w.Took Q) : w'.Took Q := by
  cases h with
  | aside _ queue =>
    rw [Took, queue]
    exact hw
  | push holds _ accepted => exact hw.receive (hPQ _ holds) accepted
  | refuse => exact hw
  | withdraw =>
    rw [Took, EventQueue.accepted_erase]
    exact hw
  | close =>
    rw [Took, EventQueue.accepted_close]
    exact hw

theorem Act.high (hP : ∀ e, P e → e.high = false) {xs : List (Nat × Event)}
    (hx : ∀ x ∈ xs, x.2.kind ≠ .timer) (hw : w.queue.ledger.high = xs) :
    w'.queue.closed ∨ w'.queue.ledger.high = xs := by
  cases h with
  | aside _ queue => exact .inr (queue ▸ hw)
  | push holds _ accepted =>
    rw [EventQueue.ledger_of_push (EventQueue.past_of_receive accepted), Ledger.enter, hP _ holds]
    exact .inr hw
  | refuse => exact .inr hw
  | withdraw =>
    have hl : (w.queue.erase .timer).ledger = w.queue.ledger.enter (.withdrawn .timer) :=
      EventQueue.ledger_of_push rfl
    refine .inr (hl ▸ ?_)
    rw [Ledger.enter, hw]
    exact List.filter_eq_self.2 fun x hm => by simpa using hx x hm
  | close => exact .inl rfl

end Act

section Acts

variable {w w' : World} (h : Acts P R w w')
include h

theorem Acts.disturbed (hP : ∀ e, P e → e.high = false) : Disturbed w w' := by
  induction h with
  | refl => exact .of_past_eq rfl
  | tail _ h ih => exact ih.trans (h.disturbed hP)

theorem Acts.accounted (hw : w.queue.Accounted) : w'.queue.Accounted := by
  induction h with
  | refl => exact hw
  | tail _ h ih => exact h.accounted ih

theorem Acts.queued (hPQ : ∀ e, P e → Q e) (hw : w.Queued Q) : w'.Queued Q := by
  induction h with
  | refl => exact hw
  | tail _ h ih => exact h.queued hPQ ih

theorem Acts.took (hPQ : ∀ e, P e → Q e) (hw : w.Took Q) : w'.Took Q := by
  induction h with
  | refl => exact hw
  | tail _ h ih => exact h.took hPQ ih

theorem Acts.high (hP : ∀ e, P e → e.high = false) {xs : List (Nat × Event)}
    (hx : ∀ x ∈ xs, x.2.kind ≠ .timer)
    (hw : w.queue.closed ∨ w.queue.ledger.high = xs) :
    w'.queue.closed ∨ w'.queue.ledger.high = xs := by
  induction h with
  | refl => exact hw
  | tail _ h ih =>
    rcases ih with hc | hx'
    · exact .inl (h.closed hc)
    · exact h.high hP hx hx'

end Acts

end World

end PrimScript
