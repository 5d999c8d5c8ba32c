import PrimScript.Proofs.Event.Ledger
import PrimScript.Proofs.World.Acts

/-! Answers under way.  Every answer that is owed has come, is still to come, or went with the main loop,
and only once: the answers that have come, those that alarms are set for and those whose alarms were
dropped are together the ones that are owed.  Whatever happens in the world, other than a request, keeps the
balance. -/

namespace PrimScript

def EventKind.isAnswer : EventKind → Bool
  | .httpResponse => true
  | .dataserver => true
  | _ => false

structure Answer where
  due : Nat
  event : Event
  /-- Was it asked for while the main loop ran? -/
  inLoop : Bool

def Answer.key? (a : Answer) : Option String :=
  match a.event.args with
  | .key id :: _ => some id
  | _ => none

namespace Attempt

def answer (x : Attempt) : Answer := ⟨x.alarm.due, x.event, x.alarm.inLoop⟩

def admitted (x : Attempt) : Bool := !x.queue.closed && x.queue.normal.length < x.queue.capacity

end Attempt

namespace Task

def period? : Task → Option Nat
  | .timer period _ _ => some period
  | .sweep _ _ period _ _ => some period
  | .answer _ => none

def isAnswer : Task → Bool
  | .answer _ => true
  | _ => false

end Task

def Alarm.answer? (a : Alarm) : Option Answer :=
  match a.task with
  | .answer e => some ⟨a.due, e, a.inLoop⟩
  | _ => none

theorem Alarm.of_answer? {a : Alarm} {x : Answer} (h : a.answer? = some x) :
    x.due = a.due ∧ x.inLoop = a.inLoop := by
  unfold answer? at h
  split at h
  · cases h
    exact ⟨rfl, rfl⟩
  · cases h

namespace EventQueue

/-- A class of events that answer requests and do not come from outside. -/
def Internal (P : Event → Prop) (p : Event → Bool) : Prop := ∀ e, p e → e.kind.isAnswer ∧ ¬ P e

/-- No answers were accepted in between, other than from outside. -/
structure Apart (P : Event → Prop) (q q' : EventQueue) : Prop where
  accepted : q.accepted.Sublist q'.accepted
  filter : ∀ p, Internal P p → q'.accepted.filter p = q.accepted.filter p

variable {P : Event → Prop} {q q' : EventQueue} {e : Event}

theorem isOk_receive (q : EventQueue) (he : e.high = false) :
    (q.receive e).isOk = (!q.closed && q.normal.length < q.capacity) := by
  unfold receive
  rw [he]
  cases hc : q.closed with
  | true => rfl
  | false =>
    by_cases hf : q.capacity ≤ q.normal.length
    · simp [hf, Except.isOk, Except.toBool]
    · simp [hf, Except.isOk, Except.toBool]
      omega

theorem Apart.of_accepted (h : q'.accepted = q.accepted) : Apart P q q' :=
  ⟨h ▸ .refl _, fun p _ => by rw [h]⟩

theorem Apart.of_receive (he : e.kind.isAnswer → P e) (h : q.receive e = .ok q') : Apart P q q' := by
  refine ⟨by simp [accepted_of_receive h], fun p hp => ?_⟩
  have hpe : p e = false := by
    by_contra h
    obtain ⟨hk, hn⟩ := hp e (by simpa using h)
    exact hn (he hk)
  simp [accepted_of_receive h, hpe]

theorem Apart.of_past {c : QueueChange} (h : q'.past = q.past.push c) (hc : ∀ e, c ≠ .accepted e) :
    Apart P q q' := of_accepted (accepted_of_past h hc)

theorem Apart.of_pop? (h : q.pop? = some (e, q')) : Apart P q q' :=
  .of_past (past_of_pop? h) (by simp)

theorem apart_erase (q : EventQueue) (kind : EventKind) : Apart P q (q.erase kind) :=
  .of_past rfl (by simp)

theorem apart_close (q : EventQueue) : Apart P q q.close := .of_past rfl (by simp)

theorem apart_nextEpoch (q : EventQueue) : Apart P q q.nextEpoch := .of_past rfl (by simp)

end EventQueue

theorem isAnswer_sweepEvent (found : List Entity) : (sweepEvent found).kind.isAnswer = false := by
  unfold sweepEvent
  split <;> rfl

namespace World

open EventQueue

variable {P : Event → Prop} {b : Basis} {k : Nat} {owed : List Answer} {w w' : World}

noncomputable def came (w : World) : List Answer := w.attempts.toList.map Attempt.answer

def underWay (w : World) : List Answer := w.alarms.filterMap Alarm.answer?

noncomputable def gone (w : World) : List Answer := w.dropped.toList.filterMap Alarm.answer?

noncomputable def taken (w : World) : List Event :=
  (w.attempts.toList.filter Attempt.admitted).map Attempt.event

/-- Answers that have come, are under way or went with the main loop make up those that are owed; requests are
answered from the settings, and `k` fresh keys or more have been given out. -/
structure Owes (P : Event → Prop) (b : Basis) (k : Nat) (owed : List Answer) (w : World) : Prop where
  basis : w.basis = b
  stub : b.settings.requests.mode = .stub
  given : k ≤ w.keysGiven
  orders : (w.alarms.map Alarm.order).Nodup
  alarmsSet : ∀ a ∈ w.alarms, a.order < w.alarmsSet
  periods : ∀ a ∈ w.alarms, ∀ p, a.task.period? = some p → Span.milli ≤ p
  loops : ∀ a ∈ w.alarms, a.inLoop → b.looping
  balance : (w.came ++ w.underWay ++ w.gone).Perm owed
  normal : ∀ x ∈ owed, x.event.high = false
  late : ∀ x ∈ w.attempts.toList, Span.nextMilli x.alarm.due ≤ x.time
  admitted : w.taken.Sublist w.queue.accepted
  accepted : ∀ p, Internal P p → w.queue.accepted.filter p = w.taken.filter p
  outside : ∀ os ∈ w.outside, ∀ o ∈ os, o.Holds P

structure Spares (P : Event → Prop) (w w' : World) : Prop where
  basis : w'.basis = w.basis
  keysGiven : w.keysGiven ≤ w'.keysGiven
  alarms : w'.alarms.Sublist w.alarms
  alarmsSet : w.alarmsSet ≤ w'.alarmsSet
  underWay : w'.underWay = w.underWay
  attempts : w'.attempts = w.attempts
  queue : Apart P w.queue w'.queue
  outside : w'.outside ⊆ w.outside

theorem Spares.refl (P : Event → Prop) (w : World) : Spares P w w where
  basis := rfl
  keysGiven := Nat.le_refl _
  alarms := .refl _
  alarmsSet := Nat.le_refl _
  underWay := rfl
  attempts := rfl
  queue := .of_accepted rfl
  outside := List.Subset.refl _

namespace Owes

theorem looping (h : w.Owes P b k owed) : w.looping = b.looping := congrArg Basis.looping h.basis

theorem isStub (h : w.Owes P b k owed) : w.settings.requests.mode = .stub := by
  have hs : w.settings = b.settings := congrArg Basis.settings h.basis
  exact hs ▸ h.stub

theorem mem_underWay (h : w.Owes P b k owed) {x : Answer} (hx : x ∈ w.underWay) : x ∈ owed :=
  h.balance.mem_iff.1 (by simp [hx])

theorem spares (h : w.Owes P b k owed) (hs : Spares P w w') : w'.Owes P b k owed where
  basis := hs.basis.trans h.basis
  stub := h.stub
  given := Nat.le_trans h.given hs.keysGiven
  orders := h.orders.sublist (hs.alarms.map _)
  alarmsSet a ha := Nat.lt_of_lt_of_le (h.alarmsSet a (hs.alarms.subset ha)) hs.alarmsSet
  periods a ha := h.periods a (hs.alarms.subset ha)
  loops a ha := h.loops a (hs.alarms.subset ha)
  balance := by
    have hd : w'.dropped = w.dropped := congrArg Basis.dropped hs.basis
    rw [came, gone, hs.attempts, hs.underWay, hd]
    exact h.balance
  normal := h.normal
  late := hs.attempts ▸ h.late
  admitted := by
    rw [taken, hs.attempts]
    exact h.admitted.trans hs.queue.accepted
  accepted p hp := by
    rw [hs.queue.filter p hp, taken, hs.attempts]
    exact h.accepted p hp
  outside os ho := h.outside os (hs.outside ho)

theorem alike (h : w.Owes P b k owed) (hw : w.Alike w') : w'.Owes P b k owed :=
  h.spares
    { basis := hw.basis
      keysGiven := hw.keysGiven
      alarms := by rw [hw.alarms]
      alarmsSet := Nat.le_of_eq hw.alarmsSet.symm
      underWay := by rw [underWay, hw.alarms, underWay]
      attempts := hw.attempts
      queue := .of_accepted (by rw [hw.queue])
      outside := by rw [hw.outside]; exact List.Subset.refl _ }

theorem setQueue (h : w.Owes P b k owed) {q : EventQueue} (hq : Apart P w.queue q) :
    { w with queue := q }.Owes P b k owed := h.spares { Spares.refl P w with queue := hq }

theorem accept (h : w.Owes P b k owed) {p : Producer} {e : Event} (he : e.kind.isAnswer → P e)
    {q : EventQueue} (hq : w.queue.receive e = .ok q) : (w.accept p e q).Owes P b k owed :=
  (h.setQueue (.of_receive he hq)).spares { Spares.refl P _ with }

theorem refuse (h : w.Owes P b k owed) (p : Producer) (e : Event) (x : EventError) :
    (w.refuse p e x).Owes P b k owed := h.spares { Spares.refl P _ with queue := .of_accepted rfl }

theorem bring (h : w.Owes P b k owed) (p : Producer) {e : Event} (he : e.kind.isAnswer → P e) :
    (w.push p e).2.Owes P b k owed := by
  rcases w.push_cases p e with ⟨q, hq, hp⟩ | ⟨x, -, hp⟩
  · rw [hp]
    exact h.accept he hq
  · rw [hp]
    exact h.refuse _ _ _

theorem enqueue (h : w.Owes P b k owed) (p : Producer) {e : Event} (he : e.kind.isAnswer → P e) :
    (w.enqueue p e).2.Owes P b k owed := by
  have hb := h.bring p he
  unfold World.enqueue
  split
  · next hp =>
    rw [hp] at hb
    exact hb
  · next hp =>
    rw [hp] at hb
    exact hb.spares { Spares.refl P _ with }
  · next hp =>
    rw [hp] at hb
    exact hb

theorem underWay_of_filter {f : Alarm → Bool} (hf : ∀ a ∈ w.alarms, a.task.isAnswer → f a)
    (alarms : w'.alarms = w.alarms.filter f) : w'.underWay = w.underWay := by
  rw [underWay, alarms, List.filterMap_filter, underWay]
  refine List.filterMap_congr fun a hm => ?_
  cases ha : f a with
  | true => rfl
  | false =>
    cases ht : a.task with
    | answer e => simp [hf a hm (by rw [ht]; rfl)] at ha
    | _ => simp [Alarm.answer?, ht]

theorem spares_of_filter {f : Alarm → Bool} (hf : ∀ a ∈ w.alarms, a.task.isAnswer → f a) (time : Nat) :
    Spares P w { w with alarms := w.alarms.filter f, now := time } :=
  { Spares.refl P w with alarms := List.filter_sublist, underWay := underWay_of_filter hf rfl }

theorem cancelTimer (h : w.Owes P b k owed) : w.cancelTimer.Owes P b k owed := by
  unfold World.cancelTimer
  split
  · exact h
  · refine (h.setQueue (apart_erase _ .timer)).spares
      { Spares.refl P _ with
        alarms := List.filter_sublist, underWay := underWay_of_filter (f := (!·.task.isTimer)) ?_ rfl }
    intro a _ ha
    cases ht : a.task <;> simp_all [Task.isAnswer, Task.isTimer]

theorem cancelSweep (h : w.Owes P b k owed) : w.cancelSweep.Owes P b k owed := by
  unfold World.cancelSweep
  split
  · refine h.spares
      { Spares.refl P w with
        alarms := List.filter_sublist, underWay := underWay_of_filter (f := (!·.task.isSweep)) ?_ rfl }
    intro a _ ha
    cases ht : a.task <;> simp_all [Task.isAnswer, Task.isSweep]
  · exact h

theorem quiet (h : w.Owes P b k owed) : w.quiet.Owes P b k owed := h.cancelTimer.cancelSweep

theorem setAlarm (h : w.Owes P b k owed) {inLoop : Bool} (hl : inLoop → b.looping) (due : Nat) {t : Task}
    (hp : ∀ p, t.period? = some p → Span.milli ≤ p) {new : List Answer}
    (hnew : (Alarm.mk due w.alarmsSet t inLoop).answer?.toList = new)
    (hn : ∀ x ∈ new, x.event.high = false) :
    (w.setAlarm inLoop due t).Owes P b k (owed ++ new) where
  basis := h.basis
  stub := h.stub
  given := h.given
  orders := by
    have hlast : ∀ a ∈ w.alarms, a.order ≠ w.alarmsSet := fun a ha =>
      Nat.ne_of_lt (h.alarmsSet a ha)
    simpa [World.setAlarm, List.nodup_append, h.orders] using hlast
  alarmsSet a ha := by
    rcases List.mem_append.1 ha with ha | ha
    · exact Nat.lt_succ_of_lt (h.alarmsSet a ha)
    · cases List.mem_singleton.1 ha
      exact Nat.lt_succ_self _
  periods a ha p hap := by
    rcases List.mem_append.1 ha with ha | ha
    · exact h.periods a ha p hap
    · cases List.mem_singleton.1 ha
      exact hp p hap
  loops a ha := by
    rcases List.mem_append.1 ha with ha | ha
    · exact h.loops a ha
    · cases List.mem_singleton.1 ha
      exact hl
  balance := by
    have hu : (w.setAlarm inLoop due t).underWay = w.underWay ++ new := by
      rw [underWay, World.setAlarm, List.filterMap_append, ← hnew, underWay]
      cases h : (Alarm.mk due w.alarmsSet t inLoop).answer? <;> simp [h]
    rw [hu, ← List.append_assoc]
    refine List.Perm.trans ?_ (h.balance.append_right new)
    rw [List.append_assoc, List.append_assoc (_ ++ _)]
    exact .append_left _ List.perm_append_comm
  normal x hx := (List.mem_append.1 hx).elim (h.normal x) (hn x)
  late := h.late
  admitted := h.admitted
  accepted := h.accepted
  outside := h.outside

theorem setAgain (h : w.Owes P b k owed) {inLoop : Bool} (hl : inLoop → b.looping) (due : Nat) {t : Task}
    (ht : t.isAnswer = false) (hp : ∀ p, t.period? = some p → Span.milli ≤ p) :
    (w.setAlarm inLoop due t).Owes P b k owed := by
  have hnew : (Alarm.mk due w.alarmsSet t inLoop).answer?.toList = [] := by
    cases t <;> simp_all [Alarm.answer?, Task.isAnswer]
  have hs := h.setAlarm hl due hp hnew (by simp)
  rwa [List.append_nil] at hs

theorem setPeriodic (h : w.Owes P b k owed) (period : Nat) {t : Task} (ht : t.isAnswer = false)
    (hp : ∀ p, t.period? = some p → Span.milli ≤ p) : (w.setPeriodic period t).Owes P b k owed := by
  unfold World.setPeriodic
  split
  · exact h.setAgain (fun hl => h.looping ▸ hl) _ ht hp
  · exact h

theorem le_of_period? {seconds : Float} {p : Nat} (h : period? seconds = some p) :
    Span.milli ≤ p := by
  obtain ⟨span, -, rfl⟩ := Option.map_eq_some_iff.1 h
  exact Nat.le_max_left _ _

theorem setTimer (h : w.Owes P b k owed) {seconds : Float} (hw : w.setTimer? seconds = some w') :
    w'.Owes P b k owed := by
  obtain rfl | ⟨-, period, hp, rfl⟩ := of_setTimer? hw
  · exact h.cancelTimer
  · have hs := h.cancelTimer.setPeriodic period
      (t := .timer period w.cancelTimer.queue.epoch w.cancelTimer.entered) rfl
      (by rintro _ ⟨⟩; exact le_of_period? hp)
    exact hs.spares { Spares.refl P _ with }

theorem repeatSweep (h : w.Owes P b k owed) {q : SensorQuery} {v : Vantage} {seconds : Float}
    (hw : w.repeatSweep? q v seconds = some w') : w'.Owes P b k owed := by
  obtain rfl | ⟨-, period, hp, rfl⟩ := of_repeatSweep? hw
  · exact h.cancelSweep
  · have hs := h.cancelSweep.setPeriodic period
      (t := .sweep q v period w.cancelSweep.queue.epoch w.cancelSweep.entered) rfl
      (by rintro _ ⟨⟩; exact le_of_period? hp)
    exact hs.spares { Spares.refl P _ with }

theorem answerAfter (h : w.Owes P b k owed) (millis : Nat) {e : Event} (he : e.high = false) :
    (w.answerAfter millis e).Owes P b k
      (owed ++ [⟨w.now + Span.ofMillis millis, e, b.looping⟩]) := by
  have hl : w.looping → b.looping := fun hl => h.looping ▸ hl
  have hs := h.setAlarm hl (w.now + Span.ofMillis millis) (t := .answer e) (by rintro _ ⟨⟩) rfl
    (by simpa [Alarm.answer?] using he)
  rw [h.looping] at hs
  rw [World.answerAfter, h.looping]
  exact hs

theorem perm_filter_order {as : List Alarm} (h : (as.map Alarm.order).Nodup) {a : Alarm}
    (ha : a ∈ as) : as.Perm (a :: as.filter (·.order ≠ a.order)) := by
  induction as with
  | nil => cases ha
  | cons b as ih =>
    rw [List.map_cons, List.nodup_cons] at h
    have hb : ∀ c ∈ as, c.order ≠ b.order := fun c hc hcb => h.1 (List.mem_map.2 ⟨c, hc, hcb⟩)
    rcases List.mem_cons.1 ha with rfl | ha
    · have hall : as.filter (·.order ≠ a.order) = as := List.filter_eq_self.2 (by simpa using hb)
      simp only [List.filter_cons, ne_eq, not_true, decide_false, Bool.false_eq_true, if_false]
      exact .cons a (.of_eq hall.symm)
    · have hkeep : decide (b.order ≠ a.order) = true := by simpa using (hb a ha).symm
      rw [List.filter_cons, if_pos hkeep]
      exact ((ih h.2 ha).cons b).trans (.swap a b _)

theorem attempt (h : w.Owes P b k owed) {a : Alarm} (ha : a ∈ w.alarms) {e : Event}
    (he : a.task = .answer e) : (w.fire a).Owes P b k owed := by
  have hperm := perm_filter_order h.orders ha
  have hanswer : a.answer? = some ⟨a.due, e, a.inLoop⟩ := by rw [Alarm.answer?, he]
  have hhigh : e.high = false :=
    h.normal _ (h.mem_underWay (List.mem_filterMap.2 ⟨a, ha, hanswer⟩))
  let x : Attempt := ⟨a, max w.now (Span.nextMilli a.due), w.queue, e⟩
  obtain ⟨q, pushes, hfire, hq⟩ : ∃ q pushes, w.fire a = { w with
        alarms := w.alarms.filter (·.order ≠ a.order), now := x.time
        attempts := w.attempts.push x, queue := q, pushes := pushes } ∧
      q.accepted = w.queue.accepted ++ ([x].filter Attempt.admitted).map Attempt.event := by
    have hok := w.queue.isOk_receive hhigh
    unfold World.fire goOff
    rw [he]
    dsimp only
    rcases World.push_cases _ .answer e with ⟨q, hq, hp⟩ | ⟨y, hq, hp⟩
    · rw [hp]
      change w.queue.receive e = .ok q at hq
      rw [hq] at hok
      have hx : x.admitted = true := hok.symm
      exact ⟨q, _, rfl, by simp [hx, accepted_of_receive hq, x]⟩
    · rw [hp]
      change w.queue.receive e = .error y at hq
      rw [hq] at hok
      have hx : x.admitted = false := hok.symm
      exact ⟨w.queue.refuse e y, _, rfl, by simp [hx, EventQueue.accepted]⟩
  rw [hfire]
  exact {
    basis := h.basis
    stub := h.stub
    given := h.given
    orders := h.orders.sublist (List.filter_sublist.map _)
    alarmsSet := fun c hc => h.alarmsSet c (List.filter_sublist.subset hc)
    periods := fun c hc => h.periods c (List.filter_sublist.subset hc)
    loops := fun c hc => h.loops c (List.filter_sublist.subset hc)
    balance := by
      have hu : w.underWay.Perm (⟨a.due, e, a.inLoop⟩ :: (w.alarms.filter (·.order ≠ a.order)).filterMap
          Alarm.answer?) := by
        have hf := hperm.filterMap Alarm.answer?
        rwa [List.filterMap_cons_some hanswer] at hf
      refine List.Perm.trans (.append_right _ ?_) h.balance
      simp only [came, underWay, History.toList_push, List.map_append, List.append_assoc]
      exact .append_left _ hu.symm
    normal := h.normal
    late := by
      simp only [History.toList_push, List.forall_mem_append]
      exact ⟨h.late, List.forall_mem_singleton.2 (Nat.le_max_right _ _)⟩
    admitted := by
      simp only [hq, taken, History.toList_push, List.filter_append, List.map_append]
      exact h.admitted.append (.refl _)
    accepted := fun p hp => by
      simp only [hq, taken, History.toList_push, List.filter_append, List.map_append]
      exact congrArg (· ++ _) (h.accepted p hp)
    outside := h.outside }

theorem tick (h : w.Owes P b k owed) {a : Alarm} (ha : a ∈ w.alarms) (ht : a.task.isAnswer = false)
    {e : Event} (he : e.kind.isAnswer = false) {kinds : List EventKind} {epoch time : Nat}
    {goesOn : Bool}
    (hw : World.tick { w with alarms := w.alarms.filter (·.order ≠ a.order), now := time } kinds
      epoch e = (goesOn, w')) :
    w'.Owes P b k owed ∧ ∀ due, (w'.setAlarm a.inLoop due a.task).Owes P b k owed := by
  have hunset : { w with alarms := w.alarms.filter (·.order ≠ a.order), now := time }.Owes P b k owed := by
    refine h.spares (spares_of_filter (f := (·.order ≠ a.order)) (fun c hc hct => ?_) time)
    refine decide_eq_true fun hca => ?_
    rw [List.inj_on_of_nodup_map h.orders hc ha hca, ht] at hct
    cases hct
  have hticked : w'.Owes P b k owed := by
    have hs := snd_tick { w with alarms := w.alarms.filter (·.order ≠ a.order), now := time } kinds
      epoch e
    rw [hw] at hs
    rcases hs with rfl | ⟨x, rfl⟩ | ⟨-, q, hq, rfl⟩
    · exact hunset
    · exact hunset.refuse _ _ _
    · exact hunset.accept (by simp [he]) hq
  exact ⟨hticked, fun due => hticked.setAgain (h.loops a ha) due ht (h.periods a ha)⟩

theorem fire (h : w.Owes P b k owed) {a : Alarm} (ha : a ∈ w.alarms) : (w.fire a).Owes P b k owed := by
  cases ht : a.task with
  | answer e => exact h.attempt ha ht
  | timer period epoch asked =>
    have hta : a.task.isAnswer = false := by rw [ht]; rfl
    unfold World.fire goOff
    simp only [ht]
    split
    · next hw => exact ht ▸ (h.tick ha hta rfl hw).2 _
    · next hw => exact (h.tick ha hta rfl hw).1
  | sweep q v period epoch asked =>
    have hta : a.task.isAnswer = false := by rw [ht]; rfl
    have he (found : List Entity) : ((sweepEvent found).askedAt asked).kind.isAnswer = false :=
      isAnswer_sweepEvent found
    unfold World.fire goOff
    simp only [ht]
    split
    · next hw => exact ht ▸ (h.tick ha hta (he _) hw).2 _
    · next hw => exact (h.tick ha hta (he _) hw).1

theorem fireBefore (h : w.Owes P b k owed) (stop fuel : Nat) :
    (World.fireBefore stop fuel w).Owes P b k owed := by
  induction fuel generalizing w with
  | zero => exact h
  | succ fuel ih =>
    unfold World.fireBefore
    split
    · exact h
    · next a ha =>
      split
      · exact ih (h.fire (mem_of_nextAlarm? ha))
      · exact h

theorem undergo (h : w.Owes P b k owed) {o : Outside} (ho : o.Holds P) : (w.undergo o).Owes P b k owed := by
  cases o with
  | alarm order =>
    rw [World.undergo]
    split
    · next a ha => exact h.fire (List.mem_of_find?_eq_some ha)
    · exact h
  | elapse span => exact h.spares { Spares.refl P _ with }
  | inject e => exact h.enqueue _ fun _ => ho
  | place e => exact h.spares { Spares.refl P _ with }
  | close => exact (h.setQueue (apart_close _)).quiet

theorem undergoAll (h : w.Owes P b k owed) {os : List Outside} (ho : ∀ o ∈ os, o.Holds P) :
    (os.foldl World.undergo w).Owes P b k owed := by
  induction os generalizing w with
  | nil => exact h
  | cons o os ih =>
    rw [List.forall_mem_cons] at ho
    exact ih (h.undergo ho.1) ho.2

theorem foresee (h : w.Owes P b k owed) {happenings : List (List Outside)}
    (ho : ∀ os ∈ happenings, ∀ o ∈ os, o.Holds P) :
    { w with outside := happenings }.Owes P b k owed := { h with outside := ho }

theorem meanwhile (h : w.Owes P b k owed) : w.meanwhile.Owes P b k owed := by
  unfold World.meanwhile
  split
  · exact h
  · next os rest heq =>
    have ho := h.outside
    rw [heq, List.forall_mem_cons] at ho
    exact (h.foresee ho.2).undergoAll ho.1

theorem setNow (h : w.Owes P b k owed) (time : Nat) : { w with now := time }.Owes P b k owed :=
  h.spares { Spares.refl P _ with }

theorem pause (h : w.Owes P b k owed) (span : Nat) : (w.pause span).Owes P b k owed :=
  (h.meanwhile.fireBefore _ _).setNow _

theorem startLoop (h : w.Owes P b k owed) :
    { w with looping := true }.Owes P { b with looping := true } k owed :=
  { h with basis := by rw [← h.basis]; rfl, loops := fun _ _ _ => rfl }

theorem endLoop (h : w.Owes P b k owed) : w.endLoop.Owes P w.endLoop.basis k owed where
  basis := rfl
  stub := by
    rw [← h.basis] at h
    exact h.stub
  given := h.given
  orders := h.orders.sublist (List.filter_sublist.map _)
  alarmsSet a ha := h.alarmsSet a (List.filter_sublist.subset ha)
  periods a ha := h.periods a (List.filter_sublist.subset ha)
  loops a ha hl := by simp [World.endLoop, hl] at ha
  balance := by
    have hu : (w.underWay).Perm (w.endLoop.underWay ++ (w.alarms.filter (·.inLoop)).filterMap
        Alarm.answer?) := by
      rw [underWay, underWay, World.endLoop, ← List.filterMap_append]
      exact (List.perm_append_comm.trans (List.filter_append_perm (fun a : Alarm => a.inLoop) _)).symm.filterMap _
    have hg : w.endLoop.gone = w.gone ++ (w.alarms.filter (·.inLoop)).filterMap Alarm.answer? := by
      rw [gone, World.endLoop, History.toList_append, List.filterMap_append, gone]
    refine List.Perm.trans ?_ h.balance
    rw [hg, List.append_assoc, List.append_assoc]
    refine .append_left _ ?_
    refine List.Perm.trans ?_ (hu.symm.append_right _)
    rw [List.append_assoc]
    exact .append_left _ List.perm_append_comm
  normal := h.normal
  late := h.late
  admitted := h.admitted
  accepted := h.accepted
  outside := h.outside

end Owes

def Keeps (P : Event → Prop) (w w' : World) : Prop :=
  ∀ ⦃b k owed⦄, w.Owes P b k owed → w'.Owes P b k owed

end World

end PrimScript
