import Mathlib.Data.List.Perm.Subperm
import Mathlib.Logic.Function.Basic
import PrimScript.Library.Time
import PrimScript.Proofs.Event.Ledger
import PrimScript.Proofs.World.Acts

/-! The timer, whoever sets it, cancels it, lets it go off and asks things of the queue, and in whichever
order.  At most one of its events is pending, which the timer that was set last has brought, and none is once
the timer is not set.  What makes it so is that unsetting the timer unsets its alarm and withdraws its event,
and that an alarm brings nothing while an event of the timer is pending. -/

namespace PrimScript

def Event.isTick (e : Event) : Bool := e.kind = .timer && e.asked.isSome

def QueueRequest.isForeign : QueueRequest → Bool
  | .push e => !e.isTick
  | .pushIn _ e => !e.isTick
  | _ => true

inductive TimerAct
  /-- The script sets the timer, or unsets it. -/
  | set (seconds : Float) : TimerAct
  | cancel : TimerAct
  /-- The alarm with that number goes off, if it is still set. -/
  | goOff (order : Nat) : TimerAct
  | ask (r : QueueRequest) (foreign : r.isForeign) : TimerAct

namespace TimerAct

def sets : TimerAct → Bool
  | .set seconds => Span.isAsked seconds
  | _ => false

def unsets : TimerAct → Bool
  | .set seconds => !Span.isAsked seconds
  | .cancel => true
  | _ => false

end TimerAct

def World.carryOut (w : World) : TimerAct → World
  | .set seconds => (Library.setTimerEvent.run ⟨"llSetTimerEvent", [.float seconds], []⟩ w).2
  | .cancel => w.cancelTimer
  | .goOff order => w.undergo (.alarm order)
  | .ask r _ => { w with queue := (w.queue.serve r).2 }

/-- A world, and what goes back to which setting of its timer.  Settings have numbers from one on; alarms
have the numbers they were set with, and events those that the ledger of the queue gives them. -/
structure Watch where
  world : World
  /-- How often the timer has been set or unset by the script. -/
  sets : Nat
  ofAlarm : Nat → Nat
  /-- The setting that an event comes of, when an alarm has brought it. -/
  ofEvent : Nat → Option Nat

namespace Watch

def start (w : World) : Watch := ⟨w, 0, fun _ => 0, fun _ => none⟩

/-- An alarm that goes off is set again as the next one, and goes back to the same setting. -/
noncomputable def step (v : Watch) (a : TimerAct) : Watch :=
  let w := v.world.carryOut a
  let next := v.world.queue.ledger.next
  match a with
  | .set _ => ⟨w, v.sets + 1, Function.update v.ofAlarm v.world.alarmsSet (v.sets + 1), v.ofEvent⟩
  | .cancel => { v with world := w }
  | .goOff order =>
    ⟨w, v.sets, Function.update v.ofAlarm v.world.alarmsSet (v.ofAlarm order),
      Function.update v.ofEvent next (some (v.ofAlarm order))⟩
  | .ask _ _ => { v with world := w, ofEvent := Function.update v.ofEvent next none }

noncomputable def after (v : Watch) (as : List TimerAct) : Watch := as.foldl step v

end Watch

namespace Ledger

def ticks (l : Ledger) : List (Nat × Event) := l.pending.filter (·.2.isTick)

theorem ticks_subperm (l : Ledger) {c : QueueChange} (hc : ∀ e, c = .accepted e → e.isTick = false) :
    (l.enter c).ticks.Subperm l.ticks := by
  by_cases ha : ∃ e, c = .accepted e
  · obtain ⟨e, rfl⟩ := ha
    have hp := (l.pending_accepted e).filter (·.2.isTick)
    rw [List.filter_cons_of_neg (by simp [hc e rfl])] at hp
    exact hp.subperm
  · exact ((l.pending_sublist fun e he => ha ⟨e, he⟩).filter _).subperm

theorem ticks_accepted {l : Ledger} (h : l.ticks = []) {e : Event} (he : e.isTick) :
    (l.enter (.accepted e)).ticks = [(l.next, e)] := by
  have hp := (l.pending_accepted e).filter (·.2.isTick)
  rw [List.filter_cons_of_pos (p := fun x : Nat × Event => x.2.isTick) he] at hp
  change (l.enter (.accepted e)).ticks.Perm ((l.next, e) :: l.ticks) at hp
  rw [h] at hp
  exact List.perm_singleton.1 hp

theorem ticks_withdrawn (l : Ledger) : (l.enter (.withdrawn .timer)).ticks = [] := by
  refine List.filter_eq_nil_iff.2 fun x hx => ?_
  simp only [enter, pending, List.mem_append, List.mem_filter] at hx
  rcases hx with hx | hx <;> simp_all [Event.isTick]

end Ledger

namespace EventQueue

variable {q q' : EventQueue}

theorem Accounted.map_ticks (h : q.Accounted) :
    q.ledger.ticks.map (·.2) = q.toList.filter Event.isTick := by
  rw [← h.map_pending, List.filter_map]
  rfl

theorem ledger_lt {x : Nat × Event} (hx : x ∈ q.ledger.ticks) : x.1 < q.ledger.next :=
  q.distinct_ledger.lt x (List.mem_append_left _ (List.mem_filter.1 hx).1)

theorem serve_foreign {r : QueueRequest} (hr : r.isForeign) :
    (q.serve r).2.ledger.ticks.Subperm q.ledger.ticks ∧
      (q.serve r).2.accepted.filter Event.isTick = q.accepted.filter Event.isTick := by
  rcases q.past_serve r with h | ⟨c, hc, ha⟩
  · rw [ledger, h, accepted, h]
    exact ⟨.refl _, rfl⟩
  · have hf (e : Event) (he : c = .accepted e) : e.isTick = false := by
      rcases ha e he with rfl | ⟨k, rfl⟩ <;> simpa [QueueRequest.isForeign] using hr
    rw [ledger_of_push hc]
    refine ⟨q.ledger.ticks_subperm hf, ?_⟩
    cases c with
    | accepted e => simp [accepted, hc, hf e rfl]
    | _ => rw [accepted_of_past hc (by simp)]

theorem Accounted.ticks_eq_nil (h : q.Accounted) (hc : q.contains .timer = false) :
    q.ledger.ticks = [] := by
  rw [← List.map_eq_nil_iff (f := (·.2)), h.map_ticks, List.filter_eq_nil_iff]
  intro e he ht
  have hk : e.kind ≠ .timer := by simpa using List.any_eq_false.1 hc e he
  simp [Event.isTick, hk] at ht

end EventQueue

namespace World

variable {w w' : World}

/-- A world in which alarms are set for the timer only, while it is set, and in which one of its events is
pending at most. -/
structure Timed (w : World) : Prop where
  accounted : w.queue.Accounted
  timers : ∀ a ∈ w.alarms, a.task.isTimer
  ticks : w.queue.ledger.ticks.length ≤ 1
  unset : w.timer = none → w.alarms = [] ∧ w.queue.ledger.ticks = []

structure Untimed (w : World) : Prop where
  accounted : w.queue.Accounted
  timer : w.timer = none
  alarms : w.alarms = []
  ticks : w.queue.ledger.ticks = []

theorem Untimed.timed (h : w.Untimed) : w.Timed where
  accounted := h.accounted
  timers := by simp [h.alarms]
  ticks := by simp [h.ticks]
  unset _ := ⟨h.alarms, h.ticks⟩

theorem Timed.untimed (h : w.Timed) (ht : w.timer = none) : w.Untimed :=
  ⟨h.accounted, ht, (h.unset ht).1, (h.unset ht).2⟩

theorem Timed.cancelTimer (h : w.Timed) : w.cancelTimer.Untimed := by
  unfold World.cancelTimer
  split
  · next ht => exact h.untimed ht
  · refine ⟨h.accounted.erase .timer, rfl, ?_, ?_⟩
    · exact List.filter_eq_nil_iff.2 fun a ha => by simp [h.timers a ha]
    · have hl : (w.queue.erase .timer).ledger = w.queue.ledger.enter (.withdrawn .timer) :=
        EventQueue.ledger_of_push rfl
      exact hl ▸ Ledger.ticks_withdrawn _

theorem cancelTimer_eq_self (h : w.timer = none) : w.cancelTimer = w := by
  simp [cancelTimer, h]

theorem alarmsSet_cancelTimer (w : World) : w.cancelTimer.alarmsSet = w.alarmsSet := by
  unfold cancelTimer
  split <;> rfl

theorem carryOut_set (w : World) (seconds : Float) :
    w.carryOut (.set seconds) = w.cancelTimer ∨ Span.isAsked seconds ∧ ∃ period,
      w.carryOut (.set seconds) = { w.cancelTimer with timer := some period } ∨
      ∃ inLoop due task, task.isTimer ∧ w.carryOut (.set seconds) =
        { w.cancelTimer.setAlarm inLoop due task with timer := some period } := by
  have hc : Call.float ⟨"llSetTimerEvent", [.float seconds], []⟩ 0 = seconds := rfl
  simp only [carryOut, Library.setTimerEvent, hc]
  split
  · next hw =>
    obtain rfl | ⟨ha, period, -, rfl⟩ := of_setTimer? hw
    · exact .inl rfl
    · refine .inr ⟨ha, period, ?_⟩
      unfold setPeriodic
      split
      · exact .inr ⟨_, _, _, rfl, rfl⟩
      · exact .inl rfl
  · exact .inl rfl

/-- What may have happened when an alarm of the timer went off. -/
structure WentOff (w : World) (a : Alarm) (w' : World) : Prop where
  timer : w'.timer = w.timer
  alarmsSet : w.alarmsSet ≤ w'.alarmsSet
  alarms : ∀ b ∈ w'.alarms, b ∈ w.alarms ∨
    b.order = w.alarmsSet ∧ w.alarmsSet < w'.alarmsSet ∧ b.task = a.task
  queue : (∃ refusals, w'.queue = { w.queue with refusals := refusals }) ∨
    w.queue.contains .timer = false ∧ ∃ e, e.isTick ∧ w.queue.receive e = .ok w'.queue

theorem queue_tick {epoch : Nat} {asked : History String} {goesOn : Bool}
    (h : w.tick [.timer] epoch ((Event.ofKind .timer []).askedAt asked) = (goesOn, w')) :
    ∃ q pushes, w' = { w with queue := q, pushes := pushes } ∧
      ((∃ refusals, q = { w.queue with refusals := refusals }) ∨
        w.queue.contains .timer = false ∧ ∃ e, e.isTick ∧ w.queue.receive e = .ok q) := by
  cases hc : w.queue.contains .timer with
  | true =>
    simp only [tick, List.any_cons, hc, Bool.true_or, if_true, Prod.mk.injEq] at h
    exact ⟨_, _, h.2.symm, .inl ⟨_, rfl⟩⟩
  | false =>
    have hs := w.snd_tick [.timer] epoch ((Event.ofKind .timer []).askedAt asked)
    rw [h] at hs
    rcases hs with rfl | ⟨x, rfl⟩ | ⟨-, q, hq, rfl⟩
    · exact ⟨_, _, rfl, .inl ⟨_, rfl⟩⟩
    · exact ⟨_, _, rfl, .inl ⟨_, rfl⟩⟩
    · exact ⟨q, _, rfl, .inr ⟨rfl, _, rfl, hq⟩⟩

theorem wentOff_fire {a : Alarm} (ha : a.task.isTimer) : w.WentOff a (w.fire a) := by
  have hold (b : Alarm) (hb : b ∈ w.alarms.filter (·.order ≠ a.order)) : b ∈ w.alarms :=
    (List.mem_filter.1 hb).1
  unfold fire goOff
  dsimp only
  split
  · next ht => simp [ht, Task.isTimer] at ha
  · split
    · next h =>
      obtain ⟨q, pushes, rfl, hq⟩ := queue_tick h
      refine ⟨rfl, Nat.le_succ _, fun b hb => ?_, hq⟩
      rcases List.mem_append.1 hb with hb | hb
      · exact .inl (hold b hb)
      · cases List.mem_singleton.1 hb
        exact .inr ⟨rfl, Nat.lt_succ_self _, rfl⟩
    · next h =>
      obtain ⟨q, pushes, rfl, hq⟩ := queue_tick h
      exact ⟨rfl, Nat.le_refl _, fun b hb => .inl (hold b hb), hq⟩
  · next ht => simp [ht, Task.isTimer] at ha

theorem carryOut_goOff (h : w.Timed) (order : Nat) :
    w.carryOut (.goOff order) = w ∨
      ∃ a ∈ w.alarms, a.order = order ∧ w.WentOff a (w.carryOut (.goOff order)) := by
  simp only [carryOut, undergo]
  split
  · next a ha =>
    have hm := List.mem_of_find?_eq_some ha
    exact .inr ⟨a, hm, by simpa using List.find?_some ha, wentOff_fire (h.timers a hm)⟩
  · exact .inl rfl

theorem Untimed.carryOut (h : w.Untimed) {a : TimerAct} (ha : a.sets = false) :
    (w.carryOut a).Untimed ∧
      (w.carryOut a).queue.accepted.filter Event.isTick = w.queue.accepted.filter Event.isTick := by
  cases a with
  | set seconds =>
    rcases w.carryOut_set seconds with hw | ⟨hs, -⟩
    · rw [hw, cancelTimer_eq_self h.timer]
      exact ⟨h, rfl⟩
    · simp [TimerAct.sets, hs] at ha
  | cancel =>
    rw [World.carryOut, cancelTimer_eq_self h.timer]
    exact ⟨h, rfl⟩
  | goOff order =>
    have hw : w.carryOut (.goOff order) = w := by simp [World.carryOut, undergo, h.alarms]
    rw [hw]
    exact ⟨h, rfl⟩
  | ask r foreign =>
    obtain ⟨hs, ha⟩ := w.queue.serve_foreign foreign
    exact ⟨⟨h.accounted.serve r, h.timer, h.alarms, List.subperm_nil.1 (h.ticks ▸ hs)⟩, ha⟩

theorem timer_foldl_placeSettings (w : World) (es : List EntitySettings) :
    (es.foldl placeSettings w).timer = w.timer := by
  induction es generalizing w with
  | nil => rfl
  | cons e es ih =>
    refine (ih _).trans ?_
    cases h : e.key <;> simp [placeSettings, keyOr, freshKey, h]

theorem untimed_ofSettings (s : Settings) (around : Surroundings) : (ofSettings s around).Untimed := by
  obtain ⟨w, hw, ha⟩ := exists_fresh_alike s around
  have hq : (ofSettings s around).queue = .empty s.queueCapacity := ha.queue.trans hw.queue
  refine ⟨hq ▸ EventQueue.accounted_empty _, ?_, ha.alarms.trans hw.alarms, ?_⟩
  · unfold ofSettings
    dsimp only
    cases s.object.key <;> cases s.object.ownerKey <;>
      simp only [keyOr, freshKey, timer_foldl_placeSettings]
  · rw [hq]
    simp [EventQueue.ledger, EventQueue.empty, Ledger.ticks, Ledger.empty, Ledger.pending]

end World

namespace Watch

variable {v : Watch}

theorem world_step (v : Watch) (a : TimerAct) : (v.step a).world = v.world.carryOut a := by
  cases a <;> rfl

theorem after_append (v : Watch) (as bs : List TimerAct) : v.after (as ++ bs) = (v.after as).after bs :=
  List.foldl_append

/-- All alarms that are set, and all events of the timer that are pending, go back to the last setting. -/
structure Kept (v : Watch) : Prop extends World.Timed v.world where
  alarms : ∀ a ∈ v.world.alarms, a.order < v.world.alarmsSet ∧ v.ofAlarm a.order = v.sets
  events : ∀ x ∈ v.world.queue.ledger.ticks, v.ofEvent x.1 = some v.sets

theorem kept_of_untimed (h : v.world.Untimed) : v.Kept where
  toTimed := h.timed
  alarms := by simp [h.alarms]
  events := by simp [h.ticks]

section GoOff

variable {a : Alarm} {w' : World}

theorem Kept.alarms_wentOff (h : v.Kept) (ha : a ∈ v.world.alarms) (hw : v.world.WentOff a w') :
    ∀ b ∈ w'.alarms, b.task.isTimer ∧ b.order < w'.alarmsSet ∧
      Function.update v.ofAlarm v.world.alarmsSet (v.ofAlarm a.order) b.order = v.sets := by
  intro b hb
  rcases hw.alarms b hb with hb | ⟨ho, hlt, hb⟩
  · obtain ⟨hlt, hs⟩ := h.alarms b hb
    exact ⟨h.timers b hb, Nat.lt_of_lt_of_le hlt hw.alarmsSet, by
      rw [Function.update_of_ne (Nat.ne_of_lt hlt), hs]⟩
  · exact ⟨hb ▸ h.timers a ha, ho ▸ hlt, by rw [ho, Function.update_self, (h.alarms a ha).2]⟩

theorem Kept.events_number (h : v.Kept) (setting : Option Nat) :
    ∀ x ∈ v.world.queue.ledger.ticks,
      Function.update v.ofEvent v.world.queue.ledger.next setting x.1 = some v.sets := by
  intro x hx
  rw [Function.update_of_ne (Nat.ne_of_lt (EventQueue.ledger_lt hx)), h.events x hx]

theorem Kept.events_wentOff (h : v.Kept) (ha : a ∈ v.world.alarms) (hw : v.world.WentOff a w') :
    w'.queue.Accounted ∧ w'.queue.ledger.ticks.length ≤ 1 ∧ ∀ x ∈ w'.queue.ledger.ticks,
      Function.update v.ofEvent v.world.queue.ledger.next (some (v.ofAlarm a.order)) x.1 =
        some v.sets := by
  rcases hw.queue with ⟨refusals, hq⟩ | ⟨hc, e, he, hq⟩
  · rw [hq]
    exact ⟨⟨h.accounted.high, h.accounted.normal, h.accounted.closed⟩, h.ticks, h.events_number _⟩
  · have ht : w'.queue.ledger.ticks = [(v.world.queue.ledger.next, e)] := by
      rw [EventQueue.ledger_of_push (EventQueue.past_of_receive hq)]
      exact Ledger.ticks_accepted (h.accounted.ticks_eq_nil hc) he
    rw [ht]
    refine ⟨h.accounted.receive hq, by simp, ?_⟩
    simp [(h.alarms a ha).2]

theorem Kept.goOff (h : v.Kept) (order : Nat) : (v.step (.goOff order)).Kept := by
  rcases World.carryOut_goOff h.toTimed order with hw | ⟨a, ha, rfl, hw⟩
  · have hs : (v.step (.goOff order)).world = v.world := hw
    refine ⟨hs ▸ h.toTimed, fun b hb => ?_, fun x hx => h.events_number _ x (hs ▸ hx)⟩
    obtain ⟨hlt, hb⟩ := h.alarms b (hs ▸ hb)
    exact ⟨hs ▸ hlt, (Function.update_of_ne (Nat.ne_of_lt hlt) _ _).trans hb⟩
  · obtain ⟨hq, hone, hevents⟩ := h.events_wentOff ha hw
    have halarms := h.alarms_wentOff ha hw
    have hset : v.world.timer ≠ none := fun ht => by simp [(h.unset ht).1] at ha
    exact ⟨⟨hq, fun b hb => (halarms b hb).1, hone, fun ht => absurd (hw.timer.symm.trans ht) hset⟩,
      fun b hb => (halarms b hb).2, hevents⟩

end GoOff

theorem Kept.step (h : v.Kept) (a : TimerAct) : (v.step a).Kept := by
  cases a with
  | set seconds =>
    have hu := h.toTimed.cancelTimer
    rcases v.world.carryOut_set seconds with hw | ⟨-, period, hw | ⟨inLoop, due, task, ht, hw⟩⟩
    · refine kept_of_untimed ?_
      rwa [world_step, hw]
    · have hs : (v.step (.set seconds)).world = { v.world.cancelTimer with timer := some period } := hw
      refine ⟨⟨hs ▸ hu.accounted, ?_, ?_, ?_⟩, ?_, ?_⟩ <;> simp [hs, hu.alarms, hu.ticks]
    · have hs : (v.step (.set seconds)).world =
          { v.world.cancelTimer.setAlarm inLoop due task with timer := some period } := hw
      have hn : v.world.cancelTimer.alarmsSet = v.world.alarmsSet := v.world.alarmsSet_cancelTimer
      -- The alarm that has just been set is the only one, and no event is pending.
      have ha : ∀ a ∈ (v.step (.set seconds)).world.alarms, a = ⟨due, v.world.alarmsSet, task, inLoop⟩ := by
        simp [hs, World.setAlarm, hu.alarms, hn]
      have hq : (v.step (.set seconds)).world.queue = v.world.cancelTimer.queue := by rw [hs]; rfl
      refine ⟨⟨hq ▸ hu.accounted, fun a hm => ha a hm ▸ ht, ?_, ?_⟩, fun a hm => ?_, ?_⟩
      · simp [hq, hu.ticks]
      · simp [hs]
      · rw [ha a hm, hs]
        exact ⟨hn ▸ Nat.lt_succ_self _, Function.update_self _ _ _⟩
      · simp [hq, hu.ticks]
  | cancel => exact kept_of_untimed (v := v.step .cancel) h.toTimed.cancelTimer
  | goOff order => exact h.goOff order
  | ask r foreign =>
    have hs := (v.world.queue.serve_foreign foreign).1
    refine ⟨⟨h.accounted.serve r, h.timers, Nat.le_trans hs.length_le h.ticks, fun ht => ?_⟩,
      h.alarms, fun x hx => ?_⟩
    · obtain ⟨ha, hn⟩ := h.unset ht
      exact ⟨ha, List.subperm_nil.1 (hn ▸ hs)⟩
    · exact h.events_number none x (hs.subset hx)

theorem Kept.after (h : v.Kept) (as : List TimerAct) : (v.after as).Kept := by
  induction as generalizing v with
  | nil => exact h
  | cons a as ih => exact ih (h.step a)

theorem Kept.silent (h : v.Kept) {a : TimerAct} (ha : a.unsets) {as : List TimerAct}
    (has : ∀ b ∈ as, b.sets = false) :
    ((v.step a).after as).world.Untimed ∧
      ((v.step a).after as).world.queue.accepted.filter Event.isTick =
        (v.step a).world.queue.accepted.filter Event.isTick := by
  have hu : (v.step a).world.Untimed := by
    cases a with
    | set seconds =>
      rcases v.world.carryOut_set seconds with hw | ⟨hs, -⟩
      · rw [world_step, hw]
        exact h.toTimed.cancelTimer
      · simp [TimerAct.unsets, hs] at ha
    | cancel => exact h.toTimed.cancelTimer
    | _ => cases ha
  generalize v.step a = u at hu
  induction as generalizing u with
  | nil => exact ⟨hu, rfl⟩
  | cons b as ih =>
    rw [List.forall_mem_cons] at has
    obtain ⟨hu, hb⟩ := hu.carryOut has.1
    rw [← world_step] at hu hb
    obtain ⟨hw, has⟩ := ih has.2 _ hu
    exact ⟨hw, has.trans hb⟩

/-- In whatever order the timer is set, unset, goes off, and things are asked of the queue: one event at most
that comes of the timer is pending, and it comes of the last setting; and once the timer has been unset none is
pending, and none accepted, until it is set to a span again.  The pending events are those the ledger has. -/
theorem ticks_of_last_setting (s : Settings) (around : Surroundings) (as : List TimerAct) :
    let v := (start (.ofSettings s around)).after as
    v.world.queue.ledger.pending.map (·.2) = v.world.queue.toList ∧
    (v.world.queue.toList.filter Event.isTick).length ≤ 1 ∧
    (∀ x ∈ v.world.queue.ledger.pending, x.2.isTick → v.ofEvent x.1 = some v.sets) ∧
    ∀ before a after, as = before ++ a :: after → a.unsets → (∀ b ∈ after, b.sets = false) →
      v.world.queue.toList.filter Event.isTick = [] ∧
      v.world.queue.accepted.filter Event.isTick =
        ((start (.ofSettings s around)).after (before ++ [a])).world.queue.accepted.filter Event.isTick := by
  intro v
  have hstart : (start (.ofSettings s around)).Kept := kept_of_untimed (World.untimed_ofSettings s around)
  have h : v.Kept := hstart.after as
  refine ⟨h.accounted.map_pending, ?_, fun x hx ht => h.events x (List.mem_filter.2 ⟨hx, ht⟩), ?_⟩
  · rw [← h.accounted.map_ticks, List.length_map]
    exact h.ticks
  · rintro before a after rfl ha hafter
    obtain ⟨hu, hs⟩ := (hstart.after before).silent ha hafter
    have hv : v = ((((start (.ofSettings s around)).after before).step a).after after) := after_append _ _ _
    rw [hv, after_append, ← hu.accounted.map_ticks, hu.ticks]
    exact ⟨rfl, hs⟩

/-- The timer brings events: when its alarm goes off one is pending. -/
example : (([.set 1, .goOff 0].foldl World.carryOut (.ofSettings .default (.plain []))).queue.toList.map
    Event.isTick) = [true] := by decide +kernel

end Watch

end PrimScript
