import PrimScript.Proofs.Engine.Course
import PrimScript.Proofs.Eval.Stable
import PrimScript.Proofs.Library.Within
import PrimScript.Proofs.World.Acts
import PrimScript.Proofs.World.Ledger

/-! What holds of the world along every course.  The functions of the library act as a script at work does: the
events they push, or put off, are of the world's own kinds; and so does all that the script runs.  So the settings
stay, the queue is accounted for, and all events that were ever queued, are put off or about to be dispatched are
expected ones. -/

namespace PrimScript

section

open World

variable {P : Event → Prop}

namespace Library

def Sound (P : Event → Prop) (f : LibraryFunction) : Prop := Within (Acts P True) f

end Library

variable (hP : ∀ e : Event, e.Own → P e)
include hP

namespace Library

theorem periodic_of_own : Periodic P where
  timer asked := hP _ (Event.own_askedAt (e := .ofKind .timer []) ⟨rfl, nofun⟩ rfl asked)
  sweep found asked := hP _ (Event.own_sweepEvent found asked)

theorem hosts_acts : Hosts (Acts P True) where
  trans := .trans
  alike := .alike
  setTimer h := .setTimer trivial _ h
  repeatSweep h := .repeatSweep trivial _ h
  cancelSweep := .cancelSweep
  sweep hq := .accept (hP _ (Event.own_sweepEvent _ _))
    (by rintro _ ⟨⟩; exact .inl ⟨trivial, rfl⟩) hq
  refused _ := (Acts.refuse _ _ _ _).trans (.report _ _ _)
  enqueue w _ he ha _ := .enqueue w _ (hP _ he) ha

theorem sound_all (f : LibraryFunction) (hf : f ∈ all) : Sound P f :=
  (within_all (hosts_acts hP) f hf).elim
    (within_asking (hosts_acts hP).toBears (fun w _ _ he ha => .answerAfter w _ (hP _ he) ha) f) id

end Library

namespace Eval

theorem acts_worldAfter (f : LibraryFunction) {r : Reply × World} (hw : r.2.Holds P) :
    Acts P True r.2 (worldAfter f r) := by
  obtain ⟨reply, w⟩ := r
  cases reply with
  | value v => exact .refl w
  | pause span => exact .pause (Library.periodic_of_own hP) span hw
  | invalid reason => exact .report w _ _
  | failed reason => exact .report w _ _
  | overlong => exact .refl w

theorem acts_callLibrary {f : LibraryFunction} (hf : f ∈ Library.all) (args : List Value)
    (detected : List Entity) {m : Machine} (hw : m.world.Holds P) :
    Acts P True m.world ((callLibrary f args detected).on m).2.world := by
  have hm : Acts P True m.world m.world.meanwhile := .meanwhile (Library.periodic_of_own hP) hw
  have hr := hm.trans (Library.sound_all hP f hf ⟨f.name, args, detected⟩ _)
  rw [on_callLibrary_snd]
  exact hr.trans (acts_worldAfter hP f (hr.holds hw))

theorem framed_acts (m₀ : Machine) (hw : m₀.world.Holds P) :
    Framed (fun m => Acts P True m₀.world m.world) fun _ => True where
  closed := .all
  warn _ _ hm := hm.trans (.report _ _ _)
  stated _ hm := hm
  capped hm := hm
  taken hm := hm
  slot _ _ := trivial
  declare _ _ _ hm _ := hm
  assign hm _ _ := ⟨trivial, hm⟩
  library hf _ _ := fun _ hm =>
    ⟨hm.trans (acts_callLibrary hP hf _ _ (hm.holds hw)), fun _ _ => trivial⟩
  request _ hm := hm
  enter _ _ _ _ hm _ := hm
  leave hm := hm

end Eval

namespace Machine

theorem acts_handle (script : Script) (h : Handler) (e : Event) {m : Machine}
    (hw : m.world.Holds P) : Acts P True m.world (m.handle script h e).2.world :=
  ((Eval.framed_acts hP { m with requested := none } hw).handle script h
    (fun _ _ => trivial) _ (.refl _)).1

theorem acts_bindGlobals (script : Script) {m : Machine} (hw : m.world.Holds P) :
    Acts P True m.world (m.bindGlobals script).2.world :=
  ((Eval.framed_acts hP { m with requested := none } hw).bindGlobals script _ _
    (.refl _)).1

end Machine

end

variable {P : Event → Prop} {R : Prop}

namespace World

def Expected (P : Event → Prop) (e : Event) : Prop := P e ∨ e = .entry

structure Sound (P : Event → Prop) (settings : Settings) (w : World) : Prop where
  settings_eq : w.settings = settings
  holds : w.Holds P
  queued : w.Queued (Expected P)
  took : w.Took (Expected P)
  accounted : w.queue.Accounted

namespace Sound

variable {settings : Settings} {w w' : World} (h : Sound P settings w)
include h

theorem acts (ha : Acts P R w w') : Sound P settings w' where
  settings_eq := ha.settings.trans h.settings_eq
  holds := ha.holds h.holds
  queued := ha.queued (fun _ => .inl) h.queued
  took := ha.took (fun _ => .inl) h.took
  accounted := ha.accounted h.accounted

theorem nextEpoch : Sound P settings (w.setQueue w.queue.nextEpoch) where
  settings_eq := h.settings_eq
  holds := ⟨h.holds.alarms, h.holds.outside⟩
  queued := nofun
  took := by
    rw [Took, setQueue, EventQueue.accepted_nextEpoch]
    exact h.took
  accounted := w.queue.accounted_nextEpoch

theorem pop {e : Event} {q : EventQueue} (hq : w.queue.pop? = some (e, q)) :
    Sound P settings (w.setQueue q) ∧ Expected P e := by
  have hall := h.queued
  rw [Queued, EventQueue.toList_of_pop? hq, List.forall_mem_cons] at hall
  have htook : (w.setQueue q).Took (Expected P) := by
    rw [Took, setQueue, EventQueue.accepted_of_pop? hq]
    exact h.took
  exact ⟨⟨h.settings_eq, ⟨h.holds.alarms, h.holds.outside⟩, hall.2, htook, h.accounted.pop hq⟩, hall.1⟩

theorem enter (target : String) :
    Sound P settings { w with entered := w.entered.push target } where
  settings_eq := h.settings_eq
  holds := ⟨h.holds.alarms, h.holds.outside⟩
  queued := h.queued
  took := h.took
  accounted := h.accounted

theorem announceEntry : Sound P settings w.announceEntry := by
  unfold World.announceEntry
  rcases w.push_cases .entry .entry with ⟨q, hq, hp⟩ | ⟨x, -, hp⟩
  · rw [hp]
    exact ⟨h.settings_eq, ⟨h.holds.alarms, h.holds.outside⟩, h.queued.receive (.inr rfl) hq,
      h.took.receive (.inr rfl) hq, h.accounted.receive hq⟩
  · rw [hp]
    exact h.acts (R := False) (.refuse _ _ _ _)

end Sound

theorem acts_dropListeners (w : World) : Acts P False w w.dropListeners := by
  unfold World.dropListeners
  split
  · exact .aside rfl rfl rfl rfl rfl
  · exact .refl w

theorem acts_closed (w : World) (message : String) :
    Acts P True w ((w.report .fatal message).setQueue w.queue.close).endLoop :=
  (Acts.report w .fatal message).trans ((Acts.single .close).trans (.endLoop _))

theorem Fresh.sound {s : Settings} {around : Surroundings} {w : World} (h : Fresh s around w) : Sound P s w where
  settings_eq := congrArg Basis.settings h.basis
  holds := ⟨by simp [h.alarms], by simp [h.outside]⟩
  queued := by
    intro e he
    rw [h.queue] at he
    cases he
  took := by
    rw [Took, h.queue, EventQueue.accepted_empty]
    exact List.forall_mem_nil _
  accounted := by
    rw [h.queue]
    exact EventQueue.accounted_empty _

theorem sound_ofSettings (s : Settings) (around : Surroundings) :
    Sound P s (ofSettings s around) := by
  obtain ⟨w, hw, ha⟩ := exists_fresh_alike s around
  exact hw.sound.acts (R := False) (.alike ha)

end World

namespace Engine

theorem acts_halt (g : Engine) (x : Halt) : World.Acts P True g.world (g.halt x).world := by
  cases x with
  | error e => exact World.acts_closed _ _
  | overlong => exact .endLoop _

theorem acts_shutDown (g : Engine) : World.Acts P False g.world g.shutDown.world :=
  (World.Acts.single .close).trans (.quiet _)

end Engine

namespace Course

structure Sound (P : Event → Prop) (settings : Settings) (c : Course) : Prop where
  world : c.world.Sound P settings
  dispatch : ∀ e, c.phase = .dispatch e → World.Expected P e

variable (hP : ∀ e : Event, e.Own → P e)
include hP

theorem acts_handle {g g' : Engine} {h : Handler} {e : Event} {r : Except Halt (Option String)}
    (hw : g.world.Holds P) (hg : g.handle h e = (r, g')) : World.Acts P True g.world g'.world := by
  cases hg
  exact Machine.acts_handle hP g.script h e hw

theorem acts_bindGlobals (g : Engine) (hw : g.world.Holds P) :
    World.Acts P True g.world (g.machine.bindGlobals g.script).2.world :=
  Machine.acts_bindGlobals hP g.script hw

theorem Loop.sound {settings : Settings} {c c' : Course} (h : Loop c c')
    (hc : Sound P settings c) : Sound P settings c' := by
  obtain ⟨hw, hd⟩ := hc
  cases h with
  | pop hs hq =>
    obtain ⟨hq, he⟩ := hw.pop hq
    exact ⟨hq, by rintro _ ⟨⟩; exact he⟩
  | unhandled => exact ⟨hw, by simp⟩
  | handled hh hg => exact ⟨hw.acts (acts_handle hP hw.holds hg), by simp⟩
  | asked hh hg => exact ⟨hw.acts (acts_handle hP hw.holds hg), by simp⟩
  | halted hh hg =>
    exact ⟨(hw.acts (acts_handle hP hw.holds hg)).acts (Engine.acts_halt _ _), by simp⟩
  | unknown => exact ⟨hw.acts (World.acts_closed _ _), by simp⟩
  | same => exact ⟨hw, by simp⟩
  | other => exact ⟨hw, by simp⟩
  | exiting => exact ⟨hw, by simp⟩
  | exited hg => exact ⟨hw.acts (acts_handle hP hw.holds hg), by simp⟩
  | exitHalted hg =>
    exact ⟨(hw.acts (acts_handle hP hw.holds hg)).acts (Engine.acts_halt _ _), by simp⟩
  | clear => exact ⟨hw.nextEpoch, by simp⟩
  | cancelTimer => exact ⟨hw.acts (R := False) (.cancelTimer _), by simp⟩
  | cancelSweep => exact ⟨hw.acts (R := False) (.cancelSweep _), by simp⟩
  | dropListeners => exact ⟨hw.acts (World.acts_dropListeners _), by simp⟩
  | enter => exact ⟨hw.enter _, by simp⟩
  | announce => exact ⟨hw.announceEntry, by simp⟩

theorem sound_start {settings : Settings} {g : Engine} (hw : g.world.Sound P settings) :
    (g.start).2.world.Sound P settings := by
  have hb := hw.acts (acts_bindGlobals hP g hw.holds)
  have hs := g.starts_start
  generalize g.start = r at hs ⊢
  cases hs with
  | already => exact hw
  | @halted x m _ h =>
    rw [h] at hb
    exact World.Sound.acts hb (Engine.acts_halt { g with machine := m } x)
  | refused _ h =>
    rw [h] at hb
    exact World.Sound.announceEntry hb
  | running _ h =>
    rw [h] at hb
    exact (World.Sound.announceEntry hb).acts (R := False) (.aside rfl rfl rfl rfl rfl)

theorem Step.sound {settings : Settings} {c c' : Course} (h : Step P c c')
    (hc : Sound P settings c) : Sound P settings c' := by
  cases h with
  | loop h => exact h.sound hP hc
  | start g => exact ⟨sound_start hP hc.world, by simp⟩
  | stop c => exact ⟨hc.world.acts (Engine.acts_shutDown _), hc.dispatch⟩
  | ended => exact ⟨hc.world.acts (R := False) (.endLoop _), hc.dispatch⟩
  | outside c ho =>
    have ha := World.Acts.undergo (R := False) (Library.periodic_of_own hP) ho hc.world.holds
    exact ⟨hc.world.acts ha, hc.dispatch⟩
  | foresee c ho => exact ⟨hc.world.acts (R := False) (.foresee _ ho), hc.dispatch⟩

theorem Steps.sound {settings : Settings} {c c' : Course} (h : Steps P c c')
    (hc : Sound P settings c) : Sound P settings c' := by
  induction h with
  | refl => exact hc
  | tail _ h ih => exact h.sound hP ih

theorem Reachable.sound {script : Script} {settings : Settings} {around : Surroundings}
    {c : Course} (h : Reachable P script settings around c) : Sound P settings c :=
  Steps.sound hP h ⟨World.sound_ofSettings settings around, nofun⟩

end Course

end PrimScript
