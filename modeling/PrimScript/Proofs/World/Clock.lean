import Mathlib.Algebra.Order.BigOperators.Group.List
import Mathlib.Algebra.Order.Ring.Nat
import PrimScript.Proofs.World.Answers

/-! Alarms do go off.  Every time one does there is less to come before a given time, because what goes off
again and again does so a millisecond later or more. -/

namespace PrimScript

def Alarm.leadTo (stop : Nat) (a : Alarm) : Nat := (stop - a.due + (Span.milli - 1)) / Span.milli

theorem Alarm.leadTo_pos {stop : Nat} {a : Alarm} (h : a.due < stop) : 0 < a.leadTo stop := by
  unfold leadTo Span.milli
  omega

theorem Alarm.leadTo_lt {stop : Nat} {a b : Alarm} (ha : a.due < stop)
    (hb : a.due + Span.milli ≤ b.due) : b.leadTo stop < a.leadTo stop := by
  unfold leadTo
  unfold Span.milli at hb ⊢
  omega

namespace World

variable {P : Event → Prop} {b : Basis} {k : Nat} {owed : List Answer} {w : World} {a : Alarm} {stop : Nat}

/-- How often alarms can go off before `stop`. -/
def leadTo (stop : Nat) (w : World) : Nat := (w.alarms.map (Alarm.leadTo stop)).sum

theorem alarms_of_tick {w' : World} {kinds : List EventKind} {epoch : Nat} {e : Event} {goesOn : Bool}
    (h : w.tick kinds epoch e = (goesOn, w')) : w'.alarms = w.alarms ∧ w'.alarmsSet = w.alarmsSet := by
  have hs := w.snd_tick kinds epoch e
  rw [h] at hs
  rcases hs with rfl | ⟨x, rfl⟩ | ⟨-, q, -, rfl⟩
  · exact ⟨rfl, rfl⟩
  · exact ⟨rfl, rfl⟩
  · exact ⟨rfl, rfl⟩

theorem alarms_fire (w : World) (a : Alarm) :
    (w.fire a).alarms = w.alarms.filter (·.order ≠ a.order) ∨
      ∃ p, a.task.period? = some p ∧ (w.fire a).alarms =
        w.alarms.filter (·.order ≠ a.order) ++ [⟨a.due + p, w.alarmsSet, a.task, a.inLoop⟩] := by
  unfold World.fire goOff
  dsimp only
  split
  · next e _ =>
    rcases World.push_cases _ .answer e with ⟨q, -, hp⟩ | ⟨x, -, hp⟩
    · exact .inl (by rw [hp]; rfl)
    · exact .inl (by rw [hp]; rfl)
  · next period epoch asked ht =>
    split
    · next h =>
      obtain ⟨ha, hs⟩ := alarms_of_tick h
      exact .inr ⟨period, by rw [ht]; rfl, by rw [World.setAlarm, ha, hs]⟩
    · next h => exact .inl (alarms_of_tick h).1
  · next q v period epoch asked ht =>
    split
    · next h =>
      obtain ⟨ha, hs⟩ := alarms_of_tick h
      exact .inr ⟨period, by rw [ht]; rfl, by rw [World.setAlarm, ha, hs]⟩
    · next h => exact .inl (alarms_of_tick h).1

theorem leadTo_fire_lt (h : w.Owes P b k owed) (ha : a ∈ w.alarms) (hs : Span.nextMilli a.due < stop) :
    (w.fire a).leadTo stop < w.leadTo stop := by
  have hdue : a.due < stop := Nat.lt_of_le_of_lt (Span.le_nextMilli a.due) hs
  have hw : w.leadTo stop =
      a.leadTo stop + ((w.alarms.filter (·.order ≠ a.order)).map (Alarm.leadTo stop)).sum := by
    have hp := (Owes.perm_filter_order h.orders ha).map (Alarm.leadTo stop)
    exact hp.sum_nat
  rw [hw]
  rcases w.alarms_fire a with hf | ⟨p, hp, hf⟩
  · rw [World.leadTo, hf]
    exact Nat.lt_add_of_pos_left (Alarm.leadTo_pos hdue)
  · have hless : Alarm.leadTo stop ⟨a.due + p, w.alarmsSet, a.task, a.inLoop⟩ < a.leadTo stop :=
      Alarm.leadTo_lt hdue (Nat.add_le_add_left (h.periods a ha p hp) a.due)
    rw [World.leadTo, hf, List.map_append, List.sum_append, Nat.add_comm, List.map_singleton,
      List.sum_singleton]
    exact Nat.add_lt_add_right hless _

theorem foldl_le {α : Type} {f : Option α → α → Option α} (rank : α → Nat)
    (hf : ∀ o a, ∃ x, f o a = some x ∧ rank x ≤ rank a ∧ ∀ b, o = some b → rank x ≤ rank b)
    (l : List α) (o : Option α) {b : α} (hb : b ∈ l ∨ o = some b) :
    ∃ x, l.foldl f o = some x ∧ rank x ≤ rank b := by
  induction l generalizing o b with
  | nil => exact ⟨b, hb.resolve_left List.not_mem_nil, Nat.le_refl _⟩
  | cons a l ih =>
    obtain ⟨x, hx, hxa, hxo⟩ := hf o a
    have hrest {c : α} (hc : rank x ≤ rank c) : ∃ y, (a :: l).foldl f o = some y ∧ rank y ≤ rank c := by
      obtain ⟨y, hy, hyx⟩ := ih (f o a) (.inr hx)
      exact ⟨y, hy, Nat.le_trans hyx hc⟩
    rcases hb with hb | hb
    · rcases List.mem_cons.1 hb with rfl | hb
      · exact hrest hxa
      · exact ih (f o a) (.inl hb)
    · exact hrest (hxo b hb)

theorem exists_nextAlarm? {b : Alarm} (hb : b ∈ w.alarms) :
    ∃ a, w.nextAlarm? = some a ∧ Span.nextMilli a.due ≤ Span.nextMilli b.due := by
  unfold World.nextAlarm?
  apply foldl_le (fun a => Span.nextMilli a.due) _ w.alarms none (.inl hb)
  intro o a
  cases o with
  | none => exact ⟨a, rfl, Nat.le_refl _, by simp⟩
  | some c =>
    dsimp only
    split
    · next h =>
      refine ⟨a, rfl, Nat.le_refl _, ?_⟩
      rintro _ ⟨⟩
      simp only [Alarm.before, Bool.or_eq_true, Bool.and_eq_true, decide_eq_true_eq, beq_iff_eq] at h
      omega
    · next h =>
      refine ⟨c, rfl, ?_, ?_⟩
      · simp only [Alarm.before, Bool.or_eq_true, Bool.and_eq_true, decide_eq_true_eq, beq_iff_eq] at h
        omega
      · rintro _ ⟨⟩
        exact Nat.le_refl _

theorem le_of_mem_fireBefore (h : w.Owes P b k owed) {fuel : Nat} (hf : w.leadTo stop ≤ fuel) {b : Alarm}
    (hb : b ∈ (fireBefore stop fuel w).alarms) : stop ≤ Span.nextMilli b.due := by
  induction fuel generalizing w with
  | zero =>
    have hle : b.leadTo stop ≤ w.leadTo stop := List.single_le_sum (by simp) _ (List.mem_map_of_mem hb)
    have hnext := Span.le_nextMilli b.due
    unfold Alarm.leadTo Span.milli at hle
    omega
  | succ fuel ih =>
    unfold fireBefore at hb
    split at hb
    · next hn =>
      obtain ⟨a, ha, -⟩ := exists_nextAlarm? hb
      rw [hn] at ha
      cases ha
    · next a ha =>
      split at hb
      · next hs =>
        have hmem := mem_of_nextAlarm? ha
        exact ih (h.fire hmem) (Nat.le_of_lt_succ (Nat.lt_of_lt_of_le (leadTo_fire_lt h hmem hs) hf)) hb
      · next hs =>
        obtain ⟨a', ha', hle⟩ := exists_nextAlarm? hb
        rw [ha, Option.some.injEq] at ha'
        rw [← ha'] at hle
        exact Nat.le_trans (Nat.le_of_not_lt hs) hle

theorem le_of_mem_underWay_fireBefore (h : w.Owes P b k owed) {fuel : Nat} (hf : w.leadTo stop ≤ fuel)
    {x : Answer} (hx : x ∈ (fireBefore stop fuel w).underWay) : stop ≤ Span.nextMilli x.due := by
  obtain ⟨b, hb, hbx⟩ := List.mem_filterMap.1 hx
  rw [(Alarm.of_answer? hbx).1]
  exact le_of_mem_fireBefore h hf hb

end World

end PrimScript
