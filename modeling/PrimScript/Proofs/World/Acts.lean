import Mathlib.Logic.Relation
import PrimScript.Proofs.World.Alike
import PrimScript.World.Alarm

/-! What happens to a world while a script runs, as far as its events are concerned.  Everything else
may change in any way, but events are only pushed, withdrawn or dropped by closing the queue, and the
events that are pushed, or put off, satisfy `P`.  Alarms that go off again and again keep what was noted
when they were asked for; new ones, and sweeps made at once, are asked for only if `R`. -/

namespace PrimScript

variable {P : Event → Prop} {R : Prop}

namespace Task

/-- The event that an alarm holds satisfies `P`, and does not come of something asked for. -/
def Holds (P : Event → Prop) : Task → Prop
  | .answer e => P e ∧ e.asked = none
  | _ => True

def asked? : Task → Option (Nat × History String)
  | .timer _ epoch asked => some (epoch, asked)
  | .sweep _ _ _ epoch asked => some (epoch, asked)
  | .answer _ => none

end Task

def Outside.Holds (P : Event → Prop) : Outside → Prop
  | .inject e => P { e with high := false, asked := none }
  | _ => True

namespace World

/-- An event may come now of what was asked for when those states had been entered: there is an alarm
for it in the present epoch, or it is asked for at this moment. -/
def Yields (R : Prop) (w : World) (asked : History String) : Prop :=
  (R ∧ asked = w.entered) ∨ ∃ a ∈ w.alarms, a.task.asked? = some (w.queue.epoch, asked)

inductive Act (P : Event → Prop) (R : Prop) (w : World) : World → Prop
  /-- Nothing happens to the queue. -/
  | aside {w' : World} (settings : w'.settings = w.settings) (queue : w'.queue = w.queue)
      (entered : w'.entered = w.entered)
      (outside : ∀ os ∈ w'.outside, os ∈ w.outside ∨ ∀ o ∈ os, o.Holds P)
      (alarms : ∀ a ∈ w'.alarms, (∃ b ∈ w.alarms, b.task = a.task) ∨ a.task.Holds P ∧
        ∀ x, a.task.asked? = some x → R ∧ x = (w.queue.epoch, w.entered)) : Act P R w w'
  | push {e : Event} {q : EventQueue} (holds : P e) (asked : ∀ k, e.asked = some k → w.Yields R k)
      (accepted : w.queue.receive e = .ok q) : Act P R w { w with queue := q }
  | refuse (e : Event) (x : EventError) : Act P R w { w with queue := w.queue.refuse e x }
  | withdraw : Act P R w { w with queue := w.queue.erase .timer }
  | close : Act P R w { w with queue := w.queue.close }

def Acts (P : Event → Prop) (R : Prop) : World → World → Prop := Relation.ReflTransGen (Act P R)

structure Holds (P : Event → Prop) (w : World) : Prop where
  alarms : ∀ a ∈ w.alarms, a.task.Holds P
  outside : ∀ os ∈ w.outside, ∀ o ∈ os, o.Holds P

theorem Act.holds {w w' : World} (h : Act P R w w') (hw : w.Holds P) : w'.Holds P := by
  cases h with
  | aside settings queue entered outside alarms =>
    refine ⟨fun a ha => ?_, fun os hos => ?_⟩
    · rcases alarms a ha with ⟨b, hb, hba⟩ | ⟨ha, -⟩
      · exact hba ▸ hw.alarms b hb
      · exact ha
    · exact (outside os hos).elim (hw.outside os) id
  | push => exact ⟨hw.alarms, hw.outside⟩
  | refuse => exact ⟨hw.alarms, hw.outside⟩
  | withdraw => exact ⟨hw.alarms, hw.outside⟩
  | close => exact ⟨hw.alarms, hw.outside⟩

theorem Act.settings {w w' : World} (h : Act P R w w') : w'.settings = w.settings := by
  cases h with
  | aside settings => exact settings
  | push => rfl
  | refuse => rfl
  | withdraw => rfl
  | close => rfl

theorem Act.closed {w w' : World} (h : Act P R w w') (hw : w.queue.closed) : w'.queue.closed := by
  cases h with
  | aside _ queue => exact queue ▸ hw
  | push holds _ accepted => simp [EventQueue.receive, hw] at accepted
  | refuse => exact hw
  | withdraw => exact hw
  | close => rfl

namespace Acts

variable {w w' w'' : World}

theorem refl (w : World) : Acts P R w w := Relation.ReflTransGen.refl

theorem trans (h : Acts P R w w') (h' : Acts P R w' w'') : Acts P R w w'' := Relation.ReflTransGen.trans h h'

theorem single (h : Act P R w w') : Acts P R w w' := Relation.ReflTransGen.single h

theorem holds (h : Acts P R w w') (hw : w.Holds P) : w'.Holds P := by
  induction h with
  | refl => exact hw
  | tail _ h ih => exact h.holds ih

theorem settings (h : Acts P R w w') : w'.settings = w.settings := by
  induction h with
  | refl => rfl
  | tail _ h ih => exact h.settings.trans ih

theorem closed (h : Acts P R w w') (hw : w.queue.closed) : w'.queue.closed := by
  induction h with
  | refl => exact hw
  | tail _ h ih => exact h.closed ih

theorem aside (settings : w'.settings = w.settings) (queue : w'.queue = w.queue)
    (entered : w'.entered = w.entered) (outside : w'.outside = w.outside)
    (alarms : w'.alarms = w.alarms) : Acts P R w w' :=
  .single <| .aside settings queue entered (fun _ ho => .inl (outside ▸ ho)) fun a ha =>
    .inl ⟨a, alarms ▸ ha, rfl⟩

theorem alike (h : w.Alike w') : Acts P R w w' :=
  aside h.settings h.queue h.entered h.outside h.alarms

theorem unset (settings : w'.settings = w.settings) (queue : w'.queue = w.queue)
    (entered : w'.entered = w.entered) (outside : w'.outside = w.outside)
    (alarms : w'.alarms ⊆ w.alarms) : Acts P R w w' :=
  .single <| .aside settings queue entered (fun _ ho => .inl (outside ▸ ho)) fun a ha =>
    .inl ⟨a, alarms ha, rfl⟩

theorem endLoop (w : World) : Acts P R w w.endLoop :=
  unset rfl rfl rfl rfl fun _ ha => (List.mem_filter.1 ha).1

theorem setNow (w : World) (time : Nat) : Acts P R w { w with now := time } :=
  aside rfl rfl rfl rfl rfl

theorem foresee (w : World) {happenings : List (List Outside)}
    (h : ∀ os ∈ happenings, ∀ o ∈ os, o.Holds P) : Acts P R w { w with outside := happenings } :=
  single (.aside rfl rfl rfl (fun os ho => .inr (h os ho)) fun a ha => .inl ⟨a, ha, rfl⟩)

theorem report (w : World) (kind : DiagnosticKind) (message : String) :
    Acts P R w (w.report kind message) := aside rfl rfl rfl rfl rfl

theorem setAlarm (w : World) (inLoop : Bool) (due : Nat) (task : Task) (h : task.Holds P)
    (hr : ∀ x, task.asked? = some x → R ∧ x = (w.queue.epoch, w.entered)) :
    Acts P R w (w.setAlarm inLoop due task) := by
  refine single (.aside rfl rfl rfl (fun _ => .inl) fun a ha => ?_)
  rcases List.mem_append.1 ha with ha | ha
  · exact .inl ⟨a, ha, rfl⟩
  · cases List.mem_singleton.1 ha
    exact .inr ⟨h, hr⟩

theorem setPeriodic (w : World) (period : Nat) (task : Task) (h : task.Holds P)
    (hr : ∀ x, task.asked? = some x → R ∧ x = (w.queue.epoch, w.entered)) :
    Acts P R w (w.setPeriodic period task) := by
  unfold World.setPeriodic
  split
  · exact setAlarm w _ _ task h hr
  · exact refl w

theorem answerAfter (w : World) (millis : Nat) {e : Event} (h : P e) (ha : e.asked = none) :
    Acts P R w (w.answerAfter millis e) := setAlarm w _ _ _ ⟨h, ha⟩ nofun

theorem push {e : Event} (h : P e) (hr : ∀ k, e.asked = some k → w.Yields R k) {q : EventQueue}
    (hq : w.queue.receive e = .ok q) : Acts P R w { w with queue := q } := single (.push h hr hq)

theorem accept {p : Producer} {e : Event} (h : P e) (hr : ∀ k, e.asked = some k → w.Yields R k)
    {q : EventQueue} (hq : w.queue.receive e = .ok q) : Acts P R w (w.accept p e q) :=
  (push h hr hq).trans (aside rfl rfl rfl rfl rfl)

theorem refuse (w : World) (p : Producer) (e : Event) (x : EventError) :
    Acts P R w (w.refuse p e x) := (single (.refuse e x)).trans (aside rfl rfl rfl rfl rfl)

theorem bring (w : World) (p : Producer) {e : Event} (h : P e)
    (hr : ∀ k, e.asked = some k → w.Yields R k) : Acts P R w (w.push p e).2 := by
  rcases w.push_cases p e with ⟨q, hq, hp⟩ | ⟨x, -, hp⟩
  · rw [hp]
    exact accept h hr hq
  · rw [hp]
    exact refuse w p e x

theorem enqueue (w : World) (p : Producer) {e : Event} (h : P e) (ha : e.asked = none) :
    Acts P R w (w.enqueue p e).2 := by
  have hb : Acts P R w (w.push p e).2 := bring w p h (by simp [ha])
  unfold World.enqueue
  generalize w.push p e = r at hb ⊢
  split
  · exact hb
  · exact hb.trans (report _ _ _)
  · exact hb

theorem cancelTimer (w : World) : Acts P R w w.cancelTimer := by
  unfold World.cancelTimer
  split
  · exact refl w
  · apply (single .withdraw).trans
    exact unset rfl rfl rfl rfl List.filter_sublist.subset

theorem cancelSweep (w : World) : Acts P R w w.cancelSweep := by
  unfold World.cancelSweep
  split
  · exact unset rfl rfl rfl rfl List.filter_sublist.subset
  · exact refl w

theorem quiet (w : World) : Acts P R w w.quiet := (cancelTimer w).trans (cancelSweep _)

theorem setTimer (hr : R) (w : World) {seconds : Float} (h : w.setTimer? seconds = some w') :
    Acts P R w w' := by
  apply (cancelTimer w).trans
  obtain rfl | ⟨-, period, -, rfl⟩ := of_setTimer? h
  · exact refl _
  · refine (setPeriodic _ _ (.timer _ _ _) trivial ?_).trans (aside rfl rfl rfl rfl rfl)
    rintro _ ⟨⟩
    exact ⟨hr, rfl⟩

theorem repeatSweep (hr : R) (w : World) {q : SensorQuery} {v : Vantage} {seconds : Float}
    (h : w.repeatSweep? q v seconds = some w') : Acts P R w w' := by
  apply (cancelSweep w).trans
  obtain rfl | ⟨-, period, -, rfl⟩ := of_repeatSweep? h
  · exact refl _
  · refine (setPeriodic _ _ (.sweep _ _ _ _ _) trivial ?_).trans (aside rfl rfl rfl rfl rfl)
    rintro _ ⟨⟩
    exact ⟨hr, rfl⟩

end Acts

theorem tick_cases (w : World) (kinds : List EventKind) (epoch : Nat) (e : Event) :
    (w.tick kinds epoch e).2 = w ∨ (w.tick kinds epoch e).2 = (w.pushIn .tick epoch e).2 := by
  unfold tick
  split
  · exact .inl rfl
  · split <;> next hp => exact .inr (by rw [hp])

theorem snd_tick (w : World) (kinds : List EventKind) (epoch : Nat) (e : Event) :
    (w.tick kinds epoch e).2 = w ∨ (∃ x, (w.tick kinds epoch e).2 = w.refuse .tick e x) ∨
      w.queue.epoch = epoch ∧
        ∃ q, w.queue.receive e = .ok q ∧ (w.tick kinds epoch e).2 = w.accept .tick e q := by
  rcases w.tick_cases kinds epoch e with h | h
  · exact .inl h
  · rw [h]
    rcases w.pushIn_cases .tick epoch e with ⟨hepoch, hp⟩ | ⟨-, hp⟩
    · rw [hp]
      rcases w.push_cases .tick e with ⟨q, hq, hp⟩ | ⟨x, -, hp⟩
      · exact .inr (.inr ⟨hepoch, q, hq, by rw [hp]⟩)
      · exact .inr (.inl ⟨x, by rw [hp]⟩)
    · exact .inr (.inl ⟨_, by rw [hp]⟩)

theorem foldl_mem {α : Type} {f : Option α → α → Option α}
    (hf : ∀ o a x, f o a = some x → x = a ∨ o = some x) {l : List α} {o : Option α} {x : α}
    (h : l.foldl f o = some x) : x ∈ l ∨ o = some x := by
  induction l generalizing o with
  | nil => exact .inr h
  | cons a l ih =>
    rcases ih h with hx | hx
    · exact .inl (List.mem_cons_of_mem _ hx)
    · rcases hf o a x hx with rfl | ho
      · exact .inl List.mem_cons_self
      · exact .inr ho

theorem mem_of_nextAlarm? {w : World} {a : Alarm} (h : w.nextAlarm? = some a) : a ∈ w.alarms := by
  refine (foldl_mem (fun o b x hx => ?_) h).resolve_right (by simp)
  cases o with
  | none => exact .inl (Option.some.inj hx).symm
  | some c =>
    dsimp only at hx
    split at hx
    · exact .inl (Option.some.inj hx).symm
    · exact .inr hx

structure Periodic (P : Event → Prop) : Prop where
  timer : ∀ asked, P ((Event.ofKind .timer []).askedAt asked)
  sweep : ∀ found asked, P ((sweepEvent found).askedAt asked)

namespace Acts

variable {w : World}

theorem of_tick {a : Alarm} (ha : a ∈ w.alarms) {epoch : Nat} {asked : History String}
    (ht : a.task.asked? = some (epoch, asked)) {e : Event} (he : P e) (hk : e.asked = some asked)
    {kinds : List EventKind} {time : Nat} {goesOn : Bool} {w' : World}
    (h : tick { w with alarms := w.alarms.filter (·.order ≠ a.order), now := time } kinds epoch e =
      (goesOn, w')) :
    Acts P R w w' ∧ ∀ due, Acts P R w (w'.setAlarm a.inLoop due a.task) := by
  -- The push comes first, while the alarm that justifies it is still set.
  obtain ⟨q, pushes, hq, rfl⟩ : ∃ q pushes, Acts P R w { w with queue := q } ∧
      w' = { w with
        alarms := w.alarms.filter (·.order ≠ a.order), now := time, queue := q, pushes := pushes } := by
    have hs := snd_tick { w with alarms := w.alarms.filter (·.order ≠ a.order), now := time } kinds epoch e
    rw [h] at hs
    rcases hs with rfl | ⟨x, rfl⟩ | ⟨rfl, q, hq, rfl⟩
    · exact ⟨w.queue, w.pushes, refl w, rfl⟩
    · exact ⟨_, _, single (.refuse e x), rfl⟩
    · refine ⟨q, _, push he (fun k hek => .inr ⟨a, ha, ?_⟩) hq, rfl⟩
      rw [ht, Option.some.inj (hk.symm.trans hek)]
  refine ⟨hq.trans (unset rfl rfl rfl rfl List.filter_sublist.subset), fun due => ?_⟩
  refine hq.trans (single (.aside rfl rfl rfl (fun _ => .inl) fun b hb => ?_))
  rcases List.mem_append.1 hb with hb | hb
  · exact .inl ⟨b, (List.mem_filter.1 hb).1, rfl⟩
  · cases List.mem_singleton.1 hb
    exact .inl ⟨a, ha, rfl⟩

variable (hP : Periodic P)
include hP

theorem fire {a : Alarm} (hmem : a ∈ w.alarms) (ha : a.task.Holds P) : Acts P R w (w.fire a) := by
  unfold World.fire goOff
  dsimp only
  split
  · next e he =>
    rw [he] at ha
    have hu : Acts P R w (noteAttempt { w with
        alarms := w.alarms.filter (·.order ≠ a.order)
        now := max w.now (Span.nextMilli a.due) } a e) :=
      unset rfl rfl rfl rfl List.filter_sublist.subset
    exact hu.trans (bring _ _ ha.1 (by simp [ha.2]))
  · next period epoch asked he =>
    split
    · next h => exact (of_tick hmem (by rw [he]; rfl) (hP.timer asked) rfl h).2 _
    · next h => exact (of_tick hmem (by rw [he]; rfl) (hP.timer asked) rfl h).1
  · next q v period epoch asked he =>
    split
    · next h => exact (of_tick hmem (by rw [he]; rfl) (hP.sweep _ asked) rfl h).2 _
    · next h => exact (of_tick hmem (by rw [he]; rfl) (hP.sweep _ asked) rfl h).1

theorem fireBefore (stop fuel : Nat) (hw : w.Holds P) : Acts P R w (World.fireBefore stop fuel w) := by
  induction fuel generalizing w with
  | zero => exact refl w
  | succ fuel ih =>
    unfold World.fireBefore
    split
    · exact refl w
    · next a ha =>
      split
      · have hmem := mem_of_nextAlarm? ha
        have hf : Acts P R w (w.fire a) := fire hP hmem (hw.alarms a hmem)
        exact hf.trans (ih (hf.holds hw))
      · exact refl w

theorem undergo {o : Outside} (ho : o.Holds P) (hw : w.Holds P) : Acts P R w (w.undergo o) := by
  cases o with
  | alarm order =>
    rw [World.undergo]
    split
    · next a ha =>
      have hmem := List.mem_of_find?_eq_some ha
      exact fire hP hmem (hw.alarms a hmem)
    · exact refl w
  | elapse span => exact aside rfl rfl rfl rfl rfl
  | inject e => exact enqueue w _ ho rfl
  | place e => exact aside rfl rfl rfl rfl rfl
  | close => exact (single .close).trans (quiet _)

theorem undergoAll {os : List Outside} (ho : ∀ o ∈ os, o.Holds P) (hw : w.Holds P) :
    Acts P R w (os.foldl World.undergo w) := by
  induction os generalizing w with
  | nil => exact refl w
  | cons o os ih =>
    rw [List.forall_mem_cons] at ho
    have hu : Acts P R w (w.undergo o) := undergo hP ho.1 hw
    exact hu.trans (ih ho.2 (hu.holds hw))

theorem meanwhile (hw : w.Holds P) : Acts P R w w.meanwhile := by
  unfold World.meanwhile
  split
  · exact refl w
  · next os rest heq =>
    have hr : Acts P R w { w with outside := rest } :=
      single <| .aside rfl rfl rfl (fun _ ho => .inl (heq ▸ List.mem_cons_of_mem _ ho))
        fun a ha => .inl ⟨a, ha, rfl⟩
    exact hr.trans (undergoAll hP (hw.outside os (heq ▸ List.mem_cons_self)) (hr.holds hw))

theorem pause (span : Nat) (hw : w.Holds P) : Acts P R w (w.pause span) := by
  have hm : Acts P R w w.meanwhile := meanwhile hP hw
  exact hm.trans ((fireBefore hP _ _ (hm.holds hw)).trans (setNow _ _))

end Acts

end World

end PrimScript
