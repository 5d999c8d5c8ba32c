import PrimScript.Proofs.Engine.Transition
import PrimScript.Proofs.World.Timely

/-! What a state has asked for does not outlive it.  Whenever an event that comes of a timer or a sweep is
pending or dispatched, the states entered so far are those that had been entered when it was asked for. -/

namespace PrimScript

variable {P Q : Event → Prop} {R : Prop}

theorem Outside.Holds.mono (hPQ : ∀ e, P e → Q e) {o : Outside} (h : o.Holds P) : o.Holds Q := by
  cases o with
  | inject e => exact hPQ _ h
  | _ => trivial

theorem World.acts_announceEntry (w : World) (h : P .entry) : Acts P R w w.announceEntry :=
  .bring w .entry h nofun

def Phase.isBetween : Phase → Bool
  | .cancelTimer _ => true
  | .cancelSweep _ => true
  | .dropListeners _ => true
  | .enter _ => true
  | _ => false

namespace Course

variable {settings : Settings} {script : Script} {around : Surroundings} {c c' : Course}

theorem Step.mono (hPQ : ∀ e, P e → Q e) (h : Step P c c') : Step Q c c' := by
  cases h with
  | loop h => exact .loop h
  | start g => exact .start g
  | stop c => exact .stop c
  | ended g hs hq => exact .ended g hs hq
  | outside c h => exact .outside c (h.mono hPQ)
  | foresee c h => exact .foresee c fun os hos o ho => (h os hos o ho).mono hPQ

theorem Steps.mono (hPQ : ∀ e, P e → Q e) (h : Steps P c c') : Steps Q c c' :=
  Relation.ReflTransGen.mono (fun _ _ => Step.mono hPQ) _ _ h

theorem Reachable.mono (hPQ : ∀ e, P e → Q e) (h : Reachable P script settings around c) :
    Reachable Q script settings around c := Steps.mono hPQ h

/-- What was asked for when those states had been entered still counts.  Between two states nothing
does. -/
def Counts (c : Course) : History String → Prop :=
  match c.phase.isBetween with
  | true => fun _ => False
  | false => (· = c.world.entered)

theorem Counts.eq_entered {k : History String} : c.Counts k → k = c.world.entered := by
  unfold Counts
  cases c.phase.isBetween with
  | true => exact False.elim
  | false => exact id

structure Timely (c : Course) : Prop where
  world : c.world.Timely c.Counts
  dispatch : ∀ e, c.phase = .dispatch e → ∀ k, e.asked = some k → k = c.world.entered
  current : c.engine.states.current = c.world.entered.toList.getLastD defaultState

theorem Timely.acts (ht : c.Timely) (hb : c'.phase.isBetween = c.phase.isBetween)
    (hr : R → c.phase.isBetween = false)
    (hd : ∀ e, c'.phase = .dispatch e → c.phase = .dispatch e)
    (hs : c'.engine.states = c.engine.states) (ha : World.Acts P R c.world c'.world) :
    c'.Timely := by
  have hc : c'.Counts = c.Counts := by simp only [Counts, hb, ha.entered]
  refine ⟨hc ▸ ht.world.acts ha fun hR => ?_, fun e he => ?_, ?_⟩
  · simp only [Counts, hr hR]
  · rw [ha.entered]
    exact ht.dispatch e (hd e he)
  · rw [hs, ha.entered]
    exact ht.current

section Timely

variable (hP : ∀ e : Event, e.Own → P e)
include hP

theorem Loop.timely (h : Loop c c') (hc : Sound P settings c) (ht : c.Timely) : c'.Timely := by
  have hw := hc.world.holds
  cases h with
  | pop hs hq =>
    obtain ⟨hq, he⟩ := ht.world.pop hq
    exact ⟨hq, by rintro _ ⟨⟩; exact he, ht.current⟩
  | handled hh hg =>
    exact ht.acts rfl (fun _ => rfl) (by simp) (states_of_handle hg).1 (acts_handle hP hw hg)
  | asked hh hg =>
    exact ht.acts rfl (fun _ => rfl) (by simp) (states_of_handle hg).1 (acts_handle hP hw hg)
  | halted hh hg =>
    exact ht.acts rfl (fun _ => rfl) (by simp) ((states_halt _ _).trans (states_of_handle hg).1)
      ((acts_handle hP hw hg).trans (Engine.acts_halt _ _))
  | unknown => exact ht.acts rfl (fun _ => rfl) (by simp) rfl (World.acts_closed (P := P) _ _)
  | exited hg =>
    exact ht.acts rfl (fun _ => rfl) (by simp) (states_of_handle hg).1 (acts_handle hP hw hg)
  | exitHalted hg =>
    exact ht.acts rfl (fun _ => rfl) (by simp) ((states_halt _ _).trans (states_of_handle hg).1)
      ((acts_handle hP hw hg).trans (Engine.acts_halt _ _))
  | clear => exact ⟨ht.world.nextEpoch, by simp, ht.current⟩
  -- Alarms are still set here, but all of them are of epochs that have passed.
  | cancelTimer => exact ht.acts rfl False.elim (by simp) rfl (World.Acts.cancelTimer (P := P) _)
  | cancelSweep => exact ht.acts rfl False.elim (by simp) rfl (World.Acts.cancelSweep (P := P) _)
  | dropListeners => exact ht.acts rfl False.elim (by simp) rfl (World.acts_dropListeners (P := P) _)
  | enter g target =>
    refine ⟨ht.world.enter _, by simp, ?_⟩
    change target = (g.world.entered.push target).toList.getLastD defaultState
    rw [History.toList_push, List.getLastD_concat]
  | announce =>
    exact ht.acts rfl (fun _ => rfl) (by simp) rfl
      (World.acts_announceEntry (P := fun _ => True) (R := True) _ trivial)
  | _ => exact ⟨ht.world, by simp, ht.current⟩

theorem Timely.start {g : Engine} (hc : Sound P settings ⟨g, .idle⟩) (ht : Timely ⟨g, .idle⟩) :
    Timely ⟨g.start.2, .idle⟩ := by
  have hb := acts_bindGlobals hP g hc.world.holds
  have hs := g.starts_start
  generalize g.start = r at hs ⊢
  cases hs with
  | already => exact ht
  | @halted x m _ h =>
    rw [h] at hb
    exact ht.acts rfl (fun _ => rfl) (by simp) (states_halt { g with machine := m } x)
      (hb.trans (Engine.acts_halt { g with machine := m } x))
  | @refused m x _ h =>
    rw [h] at hb
    have hm : Timely ⟨{ g with machine := m }, .idle⟩ := ht.acts rfl (fun _ => rfl) (by simp) rfl hb
    exact hm.acts rfl (fun _ => rfl) (by simp) rfl
      (World.acts_announceEntry (P := fun _ => True) (R := True) _ trivial)
  | @running m _ h =>
    rw [h] at hb
    have hm : Timely ⟨{ g with machine := m }, .idle⟩ := ht.acts rfl (fun _ => rfl) (by simp) rfl hb
    have ha := World.acts_announceEntry (P := fun _ => True) (R := True) m.world trivial
    exact hm.acts rfl (fun _ => rfl) (by simp) rfl (ha.trans (.aside rfl rfl rfl rfl rfl))

theorem Step.timely (h : Step P c c') (hc : Sound P settings c) (ht : c.Timely) : c'.Timely := by
  rcases h.cases_aside hP hc.world.holds with h | ⟨g, rfl, rfl⟩ | ⟨hph, hs, -, ha⟩
  · exact h.timely hP hc ht
  · exact ht.start hP hc
  · exact ht.acts (by rw [hph]) False.elim (fun e he => hph ▸ he) hs ha

theorem Reachable.timely (h : Reachable P script settings around c) : c.Timely := by
  induction h with
  | refl =>
    obtain ⟨w, hw, ha⟩ := World.exists_fresh_alike settings around
    have hempty : w.Timely (· = w.entered) := by
      refine ⟨fun e h => ?_, by simp [hw.alarms], by simp [hw.alarms]⟩
      rw [hw.queue] at h
      cases h
    refine ⟨hempty.acts_now (P := P) (R := False) (.alike ha), nofun, ?_⟩
    change defaultState = (World.ofSettings settings around).entered.toList.getLastD defaultState
    rw [ha.entered, hw.entered, History.toList_empty]
    rfl
  | tail hs h ih => exact h.timely hP (Reachable.sound hP hs) ih

end Timely

/-- Whenever an event that comes of a timer or a sweep is pending, or dispatched, no state was entered since
that timer was set or that sweep was asked for, and the present state is the one entered last.  Events of
those kinds that nobody asked for are from outside. -/
theorem asked_in_state (h : Reachable P script settings around c) :
    c.engine.states.current = c.world.entered.toList.getLastD defaultState ∧
    ∀ e, (e ∈ c.queue.toList ∨ c.phase = .dispatch e) →
      (∀ k, e.asked = some k → k = c.world.entered) ∧
      (e.kind.isServed → e.asked = none → P e) := by
  let Q (e : Event) : Prop := e.kind.isServed → e.asked = none → P e
  -- An event without a note may be from outside; the program never makes one of these kinds itself.
  have hQ : ∀ e : Event, e.Own ∨ P e → Q e := by
    rintro e (he | he) hs ha
    · exact absurd (he.asked hs) (by simp [ha])
    · exact he
  have h' : Reachable Q script settings around c := h.mono fun e he => hQ e (.inr he)
  have hP : ∀ e : Event, e.Own → Q e := fun e he => hQ e (.inl he)
  have hs : Sound Q settings c := h'.sound hP
  have ht : c.Timely := h'.timely hP
  refine ⟨ht.current, ?_⟩
  rintro e (he | he)
  · refine ⟨fun k hk => (ht.world.queued e he k hk).eq_entered, fun hk ha => ?_⟩
    rcases hs.world.queued e he with hq | rfl
    · exact hq hk ha
    · cases hk
  · refine ⟨ht.dispatch e he, fun hk ha => ?_⟩
    rcases hs.dispatch e he with hq | rfl
    · exact hq hk ha
    · cases hk

end Course

section Lookout

def Expr.scan : Expr :=
  .call "llSensor" [.literal (.string ""), .literal (.string ""), .literal (.integer 1),
    .literal (.float 10), .literal (.float 1)]

def Handler.scan : Handler := ⟨[], [.expr .scan]⟩

def Script.lookout : Script := ⟨[], [], [("default", [("state_entry", .scan)])]⟩

structure World.Bare (w : World) (q : EventQueue) : Prop where
  outside : w.outside = []
  region : w.region = []
  accepted : w.queue.receive ((Event.ofKind .noSensor []).askedAt w.entered) = .ok q

variable {m : Machine} {w : World} {q : EventQueue}

theorem Library.run_sensor (c : Call) (hw : w.Bare q) :
    sensor.run c w =
      (.void, w.accept .sweep ((Event.ofKind .noSensor []).askedAt w.entered) q) := by
  have hs : sweepEvent (w.scan (queryOf c) w.vantage) = .ofKind .noSensor [] := by
    simp [World.scan, hw.region, Region.entities, sweep, sweepEvent]
  simp only [sensor, hs, World.push_of_receive hw.accepted]

theorem Course.exists_reachable_scanned (P : Event → Prop) :
    ∃ c, Reachable P .lookout .default (.plain []) c ∧
      (Event.ofKind .noSensor []).askedAt .empty ∈ c.queue.toList := by
  obtain ⟨q, hq, hc⟩ := exists_reachable_entry P .lookout rfl .default (.plain [])
  obtain ⟨q', hq', hmem⟩ : ∃ q', q.receive ((Event.ofKind .noSensor []).askedAt .empty) = .ok q' ∧
      (Event.ofKind .noSensor []).askedAt .empty ∈ q'.toList := by
    cases hq
    exact ⟨_, rfl, List.mem_singleton.2 rfl⟩
  obtain ⟨m, hc', hw, -⟩ := hc.call (h := .scan) rfl rfl rfl rfl
    (fun _ => .cons rfl rfl rfl <| .cons rfl rfl rfl <| .cons rfl rfl rfl <| .cons rfl rfl rfl <|
      .cons rfl rfl rfl .nil) rfl (Library.run_sensor _ ⟨rfl, rfl, hq'⟩)
  refine ⟨_, hc', ?_⟩
  change _ ∈ m.world.queue.toList
  rw [hw]
  exact hmem

theorem Course.asked_in_state_lookout :
    ∃ c e, Reachable (fun _ => False) .lookout .default (.plain []) c ∧ e ∈ c.queue.toList ∧
      e.kind = .noSensor ∧ e.asked = some c.world.entered := by
  obtain ⟨c, hc, he⟩ := exists_reachable_scanned fun _ => False
  have hk := ((asked_in_state hc).2 _ (.inl he)).1 .empty rfl
  exact ⟨c, _, hc, he, rfl, congrArg some hk⟩

end Lookout

end PrimScript
