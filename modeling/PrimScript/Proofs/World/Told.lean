import PrimScript.Proofs.Event.Ledger
import PrimScript.Proofs.World.Acts
import PrimScript.Proofs.World.Alike

/-! What is told of the events that are brought to the queue.  Between two worlds events are brought to it,
it takes those that it does not refuse, and the refusals that are reported are reported once each. -/

namespace PrimScript

namespace Producer

def isLibrary : Producer → Bool
  | .function => true
  | .sweep => true
  | _ => false

end Producer

namespace EventQueue

noncomputable def refused (q : EventQueue) : List Refusal := q.refusals.toList

variable {q q' : EventQueue} {e : Event}

theorem refused_refuse (q : EventQueue) (e : Event) (x : EventError) :
    (q.refuse e x).refused = q.refused ++ [⟨e, x⟩] := History.toList_push _ _

theorem capacity_of_receive (h : q.receive e = .ok q') : q'.capacity = q.capacity := by
  unfold receive at h
  split at h
  · cases h
  · split at h
    · cases h
      rfl
    · split at h
      · cases h
      · cases h
        rfl

theorem refused_of_receive (h : q.receive e = .ok q') : q'.refused = q.refused := by
  unfold receive at h
  split at h
  · cases h
  · split at h
    · cases h
      rfl
    · split at h
      · cases h
      · cases h
        rfl

theorem eq_of_receive_full {kind : EventKind} {capacity : Nat}
    (h : q.receive e = .error (.full kind capacity)) : kind = e.kind ∧ capacity = q.capacity := by
  unfold receive at h
  split at h
  · cases h
  · split at h
    · cases h
    · split at h
      · cases h
        exact ⟨rfl, rfl⟩
      · cases h

/-- What is brought to a queue, and refused by it, and the room it has. -/
structure Keeps (q q' : EventQueue) : Prop where
  capacity : q'.capacity = q.capacity
  accepted : q'.accepted = q.accepted
  refused : q'.refused = q.refused

theorem Keeps.refl (q : EventQueue) : Keeps q q := ⟨rfl, rfl, rfl⟩

theorem keeps_erase (q : EventQueue) (kind : EventKind) : Keeps q (q.erase kind) :=
  ⟨rfl, accepted_erase q kind, rfl⟩

theorem keeps_close (q : EventQueue) : Keeps q q.close := ⟨rfl, accepted_close q, rfl⟩

theorem keeps_nextEpoch (q : EventQueue) : Keeps q q.nextEpoch := ⟨rfl, accepted_nextEpoch q, rfl⟩

theorem keeps_pop? (h : q.pop? = some (e, q')) : Keeps q q' := by
  refine ⟨?_, accepted_of_pop? h, ?_⟩
  all_goals
    unfold pop? at h
    split at h
    · cases h
      rfl
    · cases h
      rfl
    · cases h

end EventQueue

namespace Push

def accepted? (p : Push) : Option Event := if p.refusal.isNone then some p.event else none

def refused? (p : Push) : Option Refusal := p.refusal.map fun x => ⟨p.event, x⟩

def Names (capacity : Nat) (p : Push) : Prop :=
  ∀ kind n, p.refusal = some (.full kind n) → kind = p.event.kind ∧ n = capacity

def warning? : Push → Option Diagnostic
  | ⟨.outside, _, some (.full kind capacity)⟩ =>
    some ⟨.queueOverflow, (EventError.full kind capacity).message⟩
  | ⟨.function, _, some (.full kind capacity)⟩ =>
    some ⟨.queueOverflow, (EventError.full kind capacity).message⟩
  | ⟨.sweep, _, some x⟩ => some ⟨.queueOverflow, x.message⟩
  | _ => none

def offer (p : Push) : Producer × Event := (p.producer, p.event)

def brought? (p : Push) : Option (Producer × Event) :=
  if p.producer.isLibrary then some p.offer else none

end Push

namespace World

/-- The pushes that lie between two worlds. -/
structure Tells (ps : List Push) (w w' : World) : Prop where
  pushes : w'.pushes.toList = w.pushes.toList ++ ps
  capacity : w'.queue.capacity = w.queue.capacity
  accepted : w'.queue.accepted = w.queue.accepted ++ ps.filterMap Push.accepted?
  refused : w'.queue.refused = w.queue.refused ++ ps.filterMap Push.refused?
  names : ∀ p ∈ ps, p.Names w.queue.capacity
  reported : w'.reported .queueOverflow = w.reported .queueOverflow ++ ps.filterMap Push.warning?

/-- Nothing was accepted, refused or reported of any event but by the pushes in between, of which those are
the library's; and the script was not ended. -/
structure Told (brought : List (Producer × Event)) (w w' : World) : Prop where
  tells : ∃ ps, Tells ps w w' ∧ ps.filterMap Push.brought? = brought
  fatal : w'.reported .fatal = w.reported .fatal

variable {w w' w'' : World}

theorem Tells.trans {ps qs : List Push} (h : Tells ps w w') (h' : Tells qs w' w'') :
    Tells (ps ++ qs) w w'' where
  pushes := by rw [h'.pushes, h.pushes, List.append_assoc]
  capacity := h'.capacity.trans h.capacity
  accepted := by rw [h'.accepted, h.accepted, List.filterMap_append, List.append_assoc]
  refused := by rw [h'.refused, h.refused, List.filterMap_append, List.append_assoc]
  names p hp := (List.mem_append.1 hp).elim (h.names p) fun hp => h.capacity ▸ h'.names p hp
  reported := by rw [h'.reported, h.reported, List.filterMap_append, List.append_assoc]

theorem Tells.none (pushes : w'.pushes = w.pushes) (queue : w.queue.Keeps w'.queue)
    (reported : w'.reported .queueOverflow = w.reported .queueOverflow) : Tells [] w w' where
  pushes := by rw [pushes, List.append_nil]
  capacity := queue.capacity
  accepted := by rw [queue.accepted, List.filterMap_nil, List.append_nil]
  refused := by rw [queue.refused, List.filterMap_nil, List.append_nil]
  names := by simp
  reported := by rw [reported, List.filterMap_nil, List.append_nil]

theorem Tells.accept (p : Producer) {e : Event} {q : EventQueue} (hq : w.queue.receive e = .ok q) :
    Tells [⟨p, e, .none⟩] w (w.accept p e q) where
  pushes := History.toList_push _ _
  capacity := EventQueue.capacity_of_receive hq
  accepted := EventQueue.accepted_of_receive hq
  refused := (EventQueue.refused_of_receive hq).trans (List.append_nil _).symm
  names := by simp [Push.Names]
  reported := by
    have hn : [(⟨p, e, .none⟩ : Push)].filterMap Push.warning? = [] := by cases p <;> rfl
    rw [hn, List.append_nil]
    rfl

section Refuse

variable {p : Producer} {e : Event} {x : EventError}
  (hx : ∀ kind n, x = .full kind n → kind = e.kind ∧ n = w.queue.capacity)
include hx

theorem Tells.refuse (hp : Push.warning? ⟨p, e, some x⟩ = .none) :
    Tells [⟨p, e, some x⟩] w (w.refuse p e x) where
  pushes := History.toList_push _ _
  capacity := rfl
  accepted := (List.append_nil _).symm
  refused := EventQueue.refused_refuse _ _ _
  names := by simpa [Push.Names] using hx
  reported := by
    rw [List.filterMap_cons_none hp]
    exact (List.append_nil _).symm

theorem Tells.refuse_report {message : String}
    (hp : Push.warning? ⟨p, e, some x⟩ = some ⟨.queueOverflow, message⟩) :
    Tells [⟨p, e, some x⟩] w ((w.refuse p e x).report .queueOverflow message) where
  pushes := History.toList_push _ _
  capacity := rfl
  accepted := (List.append_nil _).symm
  refused := EventQueue.refused_refuse _ _ _
  names := by simpa [Push.Names] using hx
  reported := by
    rw [reported_report, List.filterMap_cons_some hp]
    rfl

end Refuse

theorem tells_enqueue (w : World) {p : Producer} (e : Event) (hp : p = .outside ∨ p = .function) :
    ∃ refusal, Tells [⟨p, e, refusal⟩] w (w.enqueue p e).2 := by
  unfold World.enqueue
  rcases w.push_cases p e with ⟨q, hq, h⟩ | ⟨x, hq, h⟩
  · rw [h]
    exact ⟨.none, .accept p hq⟩
  · rw [h]
    refine ⟨some x, ?_⟩
    cases x with
    | full kind capacity =>
      have hx := EventQueue.eq_of_receive_full hq
      refine .refuse_report (fun kind' n h => ?_) ?_
      · cases h
        exact hx
      · rcases hp with rfl | rfl <;> rfl
    | _ => exact .refuse nofun (by rcases hp with rfl | rfl <;> rfl)

namespace Told

variable {brought brought' : List (Producer × Event)}

theorem append (h : Told brought w w') (h' : Told brought' w' w'') : Told (brought ++ brought') w w'' := by
  obtain ⟨⟨ps, hp, rfl⟩, hf⟩ := h
  obtain ⟨⟨qs, hq, rfl⟩, hf'⟩ := h'
  exact ⟨⟨ps ++ qs, hp.trans hq, List.filterMap_append⟩, hf'.trans hf⟩

theorem trans (h : Told [] w w') (h' : Told brought w' w'') : Told brought w w'' := h.append h'

theorem aside (queue : w.queue.Keeps w'.queue) (pushes : w'.pushes = w.pushes)
    (diagnostics : w'.diagnostics = w.diagnostics) : Told [] w w' := by
  have hr (kind : DiagnosticKind) : w'.reported kind = w.reported kind := by
    rw [reported, diagnostics, reported]
  exact ⟨⟨[], .none pushes queue (hr _), rfl⟩, hr _⟩

theorem same (queue : w'.queue = w.queue) (pushes : w'.pushes = w.pushes)
    (diagnostics : w'.diagnostics = w.diagnostics) : Told [] w w' :=
  aside (queue ▸ .refl _) pushes diagnostics

theorem refl (w : World) : Told [] w w := same rfl rfl rfl

theorem alike (h : w.Alike w') : Told [] w w' where
  tells := ⟨[], .none h.pushes (h.queue ▸ .refl _) (h.reported _ rfl), rfl⟩
  fatal := h.reported _ rfl

theorem setQueue {q : EventQueue} (h : w.queue.Keeps q) : Told [] w { w with queue := q } :=
  aside h rfl rfl

theorem bring (w : World) {p : Producer} (e : Event) (hl : p.isLibrary = false)
    (hw : ∀ x, Push.warning? ⟨p, e, some x⟩ = none) : Told [] w (w.push p e).2 := by
  rcases w.push_cases p e with ⟨q, hq, h⟩ | ⟨x, hq, h⟩
  · rw [h]
    exact ⟨⟨_, .accept p hq, by simp [Push.brought?, hl]⟩, rfl⟩
  · rw [h]
    refine ⟨⟨_, .refuse (fun kind n hx => ?_) (hw x), by simp [Push.brought?, hl]⟩, rfl⟩
    exact EventQueue.eq_of_receive_full (hx ▸ hq)

theorem fatal_enqueue (w : World) (p : Producer) (e : Event) :
    (w.enqueue p e).2.reported .fatal = w.reported .fatal := by
  unfold World.enqueue
  rcases w.push_cases p e with ⟨q, -, h⟩ | ⟨x, -, h⟩
  · rw [h]
    rfl
  · rw [h]
    cases x with
    | full kind capacity => exact reported_report_of_ne _ (by simp) _
    | _ => rfl

theorem inject (w : World) (e : Event) : Told [] w (w.enqueue .outside e).2 := by
  obtain ⟨refusal, h⟩ := w.tells_enqueue e (.inl rfl)
  exact ⟨⟨_, h, rfl⟩, fatal_enqueue w _ e⟩

theorem enqueue (w : World) (e : Event) : Told [(.function, e)] w (w.enqueue .function e).2 := by
  obtain ⟨refusal, h⟩ := w.tells_enqueue e (.inr rfl)
  exact ⟨⟨_, h, rfl⟩, fatal_enqueue w _ e⟩

theorem cancelTimer (w : World) : Told [] w w.cancelTimer := by
  unfold World.cancelTimer
  split
  · exact refl w
  · exact aside (EventQueue.keeps_erase _ _) rfl rfl

theorem cancelSweep (w : World) : Told [] w w.cancelSweep := by
  unfold World.cancelSweep
  split
  · exact same rfl rfl rfl
  · exact refl w

theorem quiet (w : World) : Told [] w w.quiet := (cancelTimer w).trans (cancelSweep _)

theorem setPeriodic (w : World) (period : Nat) (task : Task) : Told [] w (w.setPeriodic period task) := by
  unfold World.setPeriodic
  split
  · exact same rfl rfl rfl
  · exact refl w

theorem setTimer {seconds : Float} (h : w.setTimer? seconds = some w') : Told [] w w' := by
  obtain rfl | ⟨-, period, -, rfl⟩ := of_setTimer? h
  · exact cancelTimer w
  · exact (cancelTimer w).trans ((setPeriodic _ _ _).trans (same rfl rfl rfl))

theorem repeatSweep {q : SensorQuery} {v : Vantage} {seconds : Float}
    (h : w.repeatSweep? q v seconds = some w') : Told [] w w' := by
  obtain rfl | ⟨-, period, -, rfl⟩ := of_repeatSweep? h
  · exact cancelSweep w
  · exact (cancelSweep w).trans ((setPeriodic _ _ _).trans (same rfl rfl rfl))

theorem tick (w : World) (kinds : List EventKind) (epoch : Nat) (e : Event) :
    Told [] w (w.tick kinds epoch e).2 := by
  rcases w.tick_cases kinds epoch e with h | h
  · rw [h]
    exact refl w
  · rw [h]
    rcases w.pushIn_cases .tick epoch e with ⟨-, hp⟩ | ⟨-, hp⟩
    · rw [hp]
      exact bring w e rfl fun _ => rfl
    · rw [hp]
      exact ⟨⟨_, .refuse nofun rfl, rfl⟩, rfl⟩

theorem goOff (w : World) (a : Alarm) : Told [] w (w.goOff a) := by
  have again (kinds : List EventKind) (epoch : Nat) (e : Event) {goesOn : Bool} {w' : World}
      (h : w.tick kinds epoch e = (goesOn, w')) :
        Told [] w w' ∧ ∀ inLoop due task, Told [] w (w'.setAlarm inLoop due task) := by
    have ht : Told [] w w' := by simpa [h] using tick w kinds epoch e
    exact ⟨ht, fun _ _ _ => ht.trans (same rfl rfl rfl)⟩
  unfold World.goOff
  split
  · next e _ =>
    have hn : Told [] w (w.noteAttempt a e) := same rfl rfl rfl
    exact hn.trans (bring _ e rfl fun _ => rfl)
  · split
    · next h => exact (again _ _ _ h).2 _ _ _
    · next h => exact (again _ _ _ h).1
  · split
    · next h => exact (again _ _ _ h).2 _ _ _
    · next h => exact (again _ _ _ h).1

theorem fire (w : World) (a : Alarm) : Told [] w (w.fire a) := by
  have hw : Told [] w { w with
      alarms := w.alarms.filter (·.order ≠ a.order)
      now := max w.now (Span.nextMilli a.due) } := same rfl rfl rfl
  exact hw.trans (goOff _ a)

theorem fireBefore (stop fuel : Nat) (w : World) : Told [] w (World.fireBefore stop fuel w) := by
  induction fuel generalizing w with
  | zero => exact refl w
  | succ fuel ih =>
    unfold World.fireBefore
    split
    · exact refl w
    · next a _ =>
      split
      · exact (fire w a).trans (ih _)
      · exact refl w

theorem undergo (w : World) (o : Outside) : Told [] w (w.undergo o) := by
  cases o with
  | alarm order =>
    rw [World.undergo]
    split
    · next a _ => exact fire w a
    · exact refl w
  | elapse span => exact same rfl rfl rfl
  | inject e => exact inject w _
  | place e => exact same rfl rfl rfl
  | close => exact (setQueue (EventQueue.keeps_close _)).trans (quiet _)

theorem undergoAll (w : World) (os : List Outside) : Told [] w (os.foldl World.undergo w) := by
  induction os generalizing w with
  | nil => exact refl w
  | cons o os ih => exact (undergo w o).trans (ih _)

theorem meanwhile (w : World) : Told [] w w.meanwhile := by
  unfold World.meanwhile
  split
  · exact refl w
  · next os rest _ =>
    have hw : Told [] w { w with outside := rest } := same rfl rfl rfl
    exact hw.trans (undergoAll _ _)

theorem setNow (w : World) (time : Nat) : Told [] w { w with now := time } := same rfl rfl rfl

theorem pause (w : World) (span : Nat) : Told [] w (w.pause span) :=
  (meanwhile w).trans ((fireBefore _ _ _).trans (setNow _ _))

end Told

end World

end PrimScript
