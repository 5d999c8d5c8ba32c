import PrimScript.Proofs.Engine.Sound

/-! Changes of state.  Once the queue has been cleared for one, nothing that was pending is dispatched any
more, and the next event to be dispatched is the entry that the change itself announces, unless the
queue is closed. -/

namespace PrimScript

namespace Course

noncomputable def dispatched (c : Course) : List (Nat × Event) := c.queue.ledger.popped

noncomputable def pending (c : Course) : List (Nat × Event) := c.queue.ledger.pending

variable {P : Event → Prop}

theorem states_of_handle {g g' : Engine} {h : Handler} {e : Event}
    {r : Except Halt (Option String)} (hg : g.handle h e = (r, g')) :
    g'.states = g.states ∧ g'.status = g.status := by
  cases hg
  exact ⟨rfl, rfl⟩

theorem states_halt (g : Engine) (x : Halt) : (g.halt x).states = g.states := by
  cases x <;> rfl

theorem states_start (g : Engine) : g.start.2.states = g.states := by
  have hs := g.starts_start
  generalize g.start = r at hs ⊢
  cases hs with
  | already => rfl
  | halted => exact states_halt _ _
  | refused => rfl
  | running => rfl

theorem start_of_ne {g : Engine} (h : g.status ≠ .created) : g.start.2 = g := by
  rw [Engine.start, if_neg h]

theorem status_shutDown_ne (g : Engine) : g.shutDown.status ≠ .created := by
  rcases g.status_shutDown with h | h <;> rw [h] <;> nofun

/-- The main loop only works on an engine that was started, and only goes over to states that the
script has and is not in. -/
structure Regular (script : Script) (c : Course) : Prop where
  script_eq : c.engine.states.script = script
  started : c.phase ≠ .idle → c.engine.status ≠ .created
  clear : ∀ target, c.phase = .clear target → c.engine.states.check target = .ok true
  exit : ∀ h target, c.phase = .exit h target → c.engine.states.check target = .ok true ∧
    c.engine.states.handler? EventKind.stateExit.name = some h

theorem regular_idle {script : Script} {g : Engine} (h : g.states.script = script) :
    Regular script ⟨g, .idle⟩ := ⟨h, absurd rfl, nofun, nofun⟩

theorem Loop.regular {script : Script} {c c' : Course} (h : Loop c c') (hc : Regular script c) :
    Regular script c' := by
  obtain ⟨hscript, hstarted, hclear, hexit⟩ := hc
  cases h with
  | pop hs hq => exact ⟨hscript, fun _ => by simp [hs], nofun, nofun⟩
  | unhandled => exact regular_idle hscript
  | handled hh hg => exact regular_idle ((states_of_handle hg).1 ▸ hscript)
  | asked hh hg =>
    obtain ⟨hst, hs⟩ := states_of_handle hg
    exact ⟨hst ▸ hscript, fun _ => hs ▸ hstarted nofun, nofun, nofun⟩
  | halted hh hg =>
    exact regular_idle ((states_halt _ _).trans ((states_of_handle hg).1.trans rfl) ▸ hscript)
  | unknown => exact regular_idle hscript
  | same => exact regular_idle hscript
  | other hch hh => exact ⟨hscript, fun _ => hstarted nofun, by rintro _ ⟨⟩; exact hch, nofun⟩
  | exiting hch hh => exact ⟨hscript, fun _ => hstarted nofun, nofun, by rintro _ _ ⟨⟩; exact ⟨hch, hh⟩⟩
  | exited hg =>
    obtain ⟨hst, hs⟩ := states_of_handle hg
    refine ⟨hst ▸ hscript, fun _ => hs ▸ hstarted nofun, ?_, nofun⟩
    rintro _ ⟨⟩
    exact hst ▸ (hexit _ _ rfl).1
  | exitHalted hg =>
    exact regular_idle ((states_halt _ _).trans ((states_of_handle hg).1.trans rfl) ▸ hscript)
  | clear => exact ⟨hscript, fun _ => hstarted nofun, nofun, nofun⟩
  | cancelTimer => exact ⟨hscript, fun _ => hstarted nofun, nofun, nofun⟩
  | cancelSweep => exact ⟨hscript, fun _ => hstarted nofun, nofun, nofun⟩
  | dropListeners => exact ⟨hscript, fun _ => hstarted nofun, nofun, nofun⟩
  | enter => exact ⟨hscript, fun _ => hstarted nofun, nofun, nofun⟩
  | announce => exact regular_idle hscript

theorem Step.regular {script : Script} {c c' : Course} (h : Step P c c')
    (hc : Regular script c) : Regular script c' := by
  cases h with
  | loop h => exact h.regular hc
  | start g => exact regular_idle ((congrArg StateMachine.script (states_start g)).trans hc.script_eq)
  | stop c => exact ⟨hc.script_eq, fun _ => status_shutDown_ne _, hc.clear, hc.exit⟩
  | ended g => exact regular_idle hc.script_eq
  | outside c => exact ⟨hc.script_eq, hc.started, hc.clear, hc.exit⟩
  | foresee c => exact ⟨hc.script_eq, hc.started, hc.clear, hc.exit⟩

theorem Reachable.regular {script : Script} {settings : Settings} {around : Surroundings}
    {c : Course} (h : Reachable P script settings around c) : Regular script c := by
  induction h with
  | refl => exact regular_idle rfl
  | tail _ h ih => exact h.regular ih

section Past

variable {settings : Settings} (hP : ∀ e : Event, e.Own → P e)
  (hl : ∀ e, P e → e.high = false)

def Extends (c c' : Course) : Prop :=
  ∃ cs, c'.queue.past.toList = c.queue.past.toList ++ cs

theorem Extends.of_disturbed {c c' : Course} (h : c.world.Disturbed c'.world) : Extends c c' := by
  obtain ⟨cs, hp, -⟩ := h
  exact ⟨cs, hp⟩

theorem Extends.of_push {c c' : Course} {x : QueueChange}
    (h : c'.queue.past = c.queue.past.push x) : Extends c c' :=
  ⟨[x], by rw [h, History.toList_push]⟩

theorem Extends.refl (c : Course) : Extends c c := ⟨[], (List.append_nil _).symm⟩

theorem Extends.trans {c c' c'' : Course} (h : Extends c c') (h' : Extends c' c'') :
    Extends c c'' := by
  obtain ⟨cs, hp⟩ := h
  obtain ⟨ds, hp'⟩ := h'
  exact ⟨cs ++ ds, by rw [hp', hp, List.append_assoc]⟩

theorem Extends.dispatched {c c' : Course} (h : Extends c c') : c.dispatched <+: c'.dispatched := by
  obtain ⟨cs, hp⟩ := h
  rw [Course.dispatched, Course.dispatched, EventQueue.ledger_of_past hp]
  exact Ledger.popped_prefix_replay _ cs

theorem past_announceEntry (w : World) :
    w.announceEntry.queue.past = w.queue.past.push (.accepted .entry) ∧
        w.queue.receive .entry = .ok w.announceEntry.queue ∨
      w.announceEntry.queue.closed ∧ w.announceEntry.queue.past = w.queue.past := by
  unfold World.announceEntry
  rcases w.push_cases .entry .entry with ⟨q, hq, hp⟩ | ⟨x, hq, hp⟩
  · rw [hp]
    exact .inl ⟨EventQueue.past_of_receive hq, hq⟩
  · rw [hp]
    refine .inr ⟨?_, rfl⟩
    by_contra hc
    have hopen : ¬ w.queue.closed := hc
    simp [EventQueue.receive, hopen, Event.entry] at hq

theorem extends_announceEntry (g : Engine) (phase phase' : Phase) :
    Extends ⟨g, phase⟩ ⟨g.mapWorld World.announceEntry, phase'⟩ := by
  rcases past_announceEntry g.world with ⟨hp, -⟩ | ⟨-, he⟩
  · exact .of_push hp
  · refine ⟨[], ?_⟩
    change g.world.announceEntry.queue.past.toList = _
    rw [he, List.append_nil]
    rfl

include hP hl

theorem Loop.extends {c c' : Course} (h : Loop c c') (hc : Sound P settings c) :
    Extends c c' := by
  have hw := hc.world.holds
  cases h with
  | pop hs hq => exact .of_push (EventQueue.past_of_pop? hq)
  | unhandled => exact .refl _
  | handled hh hg => exact .of_disturbed ((acts_handle hP hw hg).disturbed hl)
  | asked hh hg => exact .of_disturbed ((acts_handle hP hw hg).disturbed hl)
  | halted hh hg =>
    exact .of_disturbed (((acts_handle hP hw hg).trans (Engine.acts_halt _ _)).disturbed hl)
  | unknown => exact .of_disturbed ((World.acts_closed _ _).disturbed hl)
  | same => exact .refl _
  | other => exact .refl _
  | exiting => exact .refl _
  | exited hg => exact .of_disturbed ((acts_handle hP hw hg).disturbed hl)
  | exitHalted hg =>
    exact .of_disturbed (((acts_handle hP hw hg).trans (Engine.acts_halt _ _)).disturbed hl)
  | clear => exact .of_push rfl
  | cancelTimer => exact .of_disturbed ((World.Acts.cancelTimer (R := False) _).disturbed hl)
  | cancelSweep => exact .of_disturbed ((World.Acts.cancelSweep (R := False) _).disturbed hl)
  | dropListeners => exact .of_disturbed ((World.acts_dropListeners _).disturbed hl)
  | enter => exact .refl _
  | announce g => exact extends_announceEntry g _ _

theorem extends_start {g : Engine} (hw : g.world.Holds P) :
    Extends ⟨g, .idle⟩ ⟨g.start.2, .idle⟩ := by
  have hb := acts_bindGlobals hP g hw
  have hs := g.starts_start
  generalize g.start = r at hs ⊢
  cases hs with
  | already => exact .refl _
  | @halted x m _ h =>
    rw [h] at hb
    have ha := Engine.acts_halt (P := P) { g with machine := m } x
    exact .of_disturbed ((World.Acts.trans hb ha).disturbed hl)
  | @refused m x _ h =>
    rw [h] at hb
    have hm : Extends ⟨g, .idle⟩ ⟨{ g with machine := m }, .idle⟩ :=
      .of_disturbed (World.Acts.disturbed hb hl)
    exact hm.trans (extends_announceEntry _ .idle _)
  | @running m _ h =>
    rw [h] at hb
    have hm : Extends ⟨g, .idle⟩ ⟨{ g with machine := m }, .idle⟩ :=
      .of_disturbed (World.Acts.disturbed hb hl)
    exact hm.trans (extends_announceEntry _ .idle .idle)

omit hP hl in
theorem Step.cases_aside (hP : ∀ e : Event, e.Own → P e) {c c' : Course} (h : Step P c c')
    (hw : c.world.Holds P) :
    Loop c c' ∨ (∃ g : Engine, c = ⟨g, .idle⟩ ∧ c' = ⟨g.start.2, .idle⟩) ∨
      (c'.phase = c.phase ∧ c'.engine.states = c.engine.states ∧
        (c.engine.status ≠ .created → c'.engine.status ≠ .created) ∧
        World.Acts P False c.world c'.world) := by
  cases h with
  | loop h => exact .inl h
  | start g => exact .inr (.inl ⟨g, rfl, rfl⟩)
  | stop c => exact .inr (.inr ⟨rfl, rfl, fun _ => status_shutDown_ne _, Engine.acts_shutDown _⟩)
  | ended g => exact .inr (.inr ⟨rfl, rfl, id, .endLoop _⟩)
  | outside c ho =>
    exact .inr (.inr ⟨rfl, rfl, id, .undergo (Library.periodic_of_own hP) ho hw⟩)
  | foresee c ho => exact .inr (.inr ⟨rfl, rfl, id, .foresee _ ho⟩)

theorem Step.extends {c c' : Course} (h : Step P c c') (hc : Sound P settings c) :
    Extends c c' := by
  rcases h.cases_aside hP hc.world.holds with h | ⟨g, rfl, rfl⟩ | ⟨-, -, -, ha⟩
  · exact h.extends hP hl hc
  · exact extends_start hP hl hc.world.holds
  · exact .of_disturbed (ha.disturbed hl)

theorem Steps.extends {c c' : Course} (h : Steps P c c') (hc : Sound P settings c) :
    Extends c c' := by
  induction h with
  | refl => exact .refl c
  | tail hs h ih => exact ih.trans (h.extends hP hl (Steps.sound hP hs hc))

end Past

/-- The next event of high priority is the entry that was announced last, by the step from `c₂` on. -/
structure Announced (P : Event → Prop) (c₁ c₂ c : Course) : Prop where
  before : Steps P c₁ c₂
  phase : c₂.phase = .announce
  disturbed : c₁.world.Disturbed c₂.world
  after : ∃ c₃, Loop c₂ c₃ ∧ Steps P c₃ c
  high : c.queue.ledger.high = [(c₂.queue.ledger.next, .entry)]

/-- What is the case after `c₁`, where the queue was cleared for a change of state, as long as nothing
has been dispatched. -/
inductive Waiting (P : Event → Prop) (target : String) (c₁ c : Course) : Prop
  | leaving : c.phase = .cancelTimer target ∨ c.phase = .cancelSweep target ∨
      c.phase = .dropListeners target ∨ c.phase = .enter target →
    c₁.world.Disturbed c.world → (c.queue.closed ∨ c.queue.ledger.high = []) →
    Waiting P target c₁ c
  | entered : c.phase = .announce → c.engine.states.current = target →
    c₁.world.Disturbed c.world → (c.queue.closed ∨ c.queue.ledger.high = []) →
    Waiting P target c₁ c
  | announced : c.phase = .idle → c.engine.status ≠ .created →
    c.engine.states.current = target → (c.queue.closed ∨ ∃ c₂, Announced P c₁ c₂ c) →
    Waiting P target c₁ c
  | popped : c.dispatched ≠ c₁.dispatched → Waiting P target c₁ c

section Waiting

variable {settings : Settings} {script : Script} {target : String} {c₁ c c' : Course}
  (hl : ∀ e, P e → e.high = false)
include hl

theorem high_nil_of_acts (ha : World.Acts P False c.world c'.world)
    (hh : c.queue.closed ∨ c.queue.ledger.high = []) :
    c'.queue.closed ∨ c'.queue.ledger.high = [] :=
  ha.high hl (by simp) hh

theorem Announced.acts {c₂ : Course} (h : Announced P c₁ c₂ c) (hs : Step P c c')
    (ha : World.Acts P False c.world c'.world) : c'.queue.closed ∨ Announced P c₁ c₂ c' := by
  rcases ha.high hl (by simp [Event.entry, Event.ofKind]) (.inr h.high) with hc | hh
  · exact .inl hc
  · obtain ⟨c₃, hc₃, hs₃⟩ := h.after
    exact .inr ⟨h.before, h.phase, h.disturbed, ⟨c₃, hc₃, hs₃.trans (.one hs)⟩, hh⟩

theorem Waiting.leave (hd : c₁.world.Disturbed c.world)
    (hh : c.queue.closed ∨ c.queue.ledger.high = []) (ha : World.Acts P False c.world c'.world)
    (hp : c'.phase = .cancelTimer target ∨ c'.phase = .cancelSweep target ∨
      c'.phase = .dropListeners target ∨ c'.phase = .enter target) :
    Waiting P target c₁ c' :=
  .leaving hp (hd.trans (ha.disturbed hl)) (high_nil_of_acts hl ha hh)

omit hl in
theorem Waiting.announce {g : Engine} (hs : Steps P c₁ ⟨g, .announce⟩)
    (ht : g.states.current = target) (hg : g.status ≠ .created)
    (hd : c₁.world.Disturbed g.world) (hh : g.world.queue.closed ∨ g.world.queue.ledger.high = []) :
    Waiting P target c₁ ⟨g.mapWorld World.announceEntry, .idle⟩ := by
  refine .announced rfl hg ht ?_
  rcases past_announceEntry g.world with ⟨hp, hq⟩ | ⟨hc, he⟩
  · refine .inr ⟨⟨g, .announce⟩, hs, rfl, hd, ⟨_, .announce g, Relation.ReflTransGen.refl⟩, ?_⟩
    have hn : g.world.queue.ledger.high = [] := by
      refine hh.resolve_left fun hc => ?_
      simp [EventQueue.receive, hc] at hq
    change g.world.announceEntry.queue.ledger.high = _
    rw [EventQueue.ledger_of_push hp, Ledger.enter]
    simp [Event.entry, hn, Course.queue, Course.world]
  · exact .inl hc

omit hl in
theorem Waiting.of_pop {g : Engine} {e : Event} {q : EventQueue} (he : Extends c₁ ⟨g, .idle⟩)
    (hc : Sound P settings ⟨g, .idle⟩) (hq : g.world.queue.pop? = some (e, q)) :
    Waiting P target c₁ ⟨g.mapWorld (·.setQueue q), .dispatch e⟩ := by
  obtain ⟨n, -, hpop⟩ := hc.world.accounted.ledger_of_pop? hq
  refine .popped fun heq => ?_
  have hlen := congrArg List.length (hpop.symm.trans heq)
  rw [List.length_append] at hlen
  have hle : c₁.dispatched.length ≤ _ := he.dispatched.length_le
  rw [← hlen] at hle
  exact absurd hle (by simp [dispatched, queue, world])

variable (hP : ∀ e : Event, e.Own → P e)
include hP

theorem Waiting.step (hw : Waiting P target c₁ c) (h : Step P c c') (hs : Steps P c₁ c)
    (hc₁ : Sound P settings c₁) (hr : Regular script c) : Waiting P target c₁ c' := by
  have hc : Sound P settings c := Steps.sound hP hs hc₁
  cases hw with
  | leaving hp hd hh =>
    rcases h.cases_aside hP hc.world.holds with h | ⟨g, rfl, rfl⟩ | ⟨hph, -, -, ha⟩
    · cases h with
      | cancelTimer g t =>
        obtain rfl : t = target := by simpa using hp
        exact .leave hl hd hh (.cancelTimer g.world) (by simp)
      | cancelSweep g t =>
        obtain rfl : t = target := by simpa using hp
        exact .leave hl hd hh (.cancelSweep g.world) (by simp)
      | dropListeners g t =>
        obtain rfl : t = target := by simpa using hp
        exact .leave hl hd hh (World.acts_dropListeners g.world) (by simp)
      | enter g t =>
        obtain rfl : t = target := by simpa using hp
        exact .entered rfl rfl hd hh
      | _ => simp at hp
    · simp at hp
    · exact .leave hl hd hh ha (hph ▸ hp)
  | entered hp ht hd hh =>
    rcases h.cases_aside hP hc.world.holds with h | ⟨g, rfl, rfl⟩ | ⟨hph, hst, -, ha⟩
    · cases h with
      | announce g => exact .announce hs ht (hr.started nofun) hd hh
      | _ => simp at hp
    · simp at hp
    · exact .entered (hph.trans hp) (hst ▸ ht) (hd.trans (ha.disturbed hl))
        (high_nil_of_acts hl ha hh)
  | announced hp hg ht hh =>
    have he : Extends c₁ c := Steps.extends hP hl hs hc₁
    rcases h.cases_aside hP hc.world.holds with h' | ⟨g, rfl, rfl⟩ | ⟨hph, hst, hgs, ha⟩
    · cases h' with
      | pop hrun hq => exact .of_pop he hc hq
      | _ => simp at hp
    · rw [start_of_ne hg]
      exact .announced hp hg ht hh
    · refine .announced (hph.trans hp) (hgs hg) (hst ▸ ht) ?_
      rcases hh with hcl | ⟨c₂, hc₂⟩
      · exact .inl (ha.closed hcl)
      · exact (hc₂.acts hl h ha).imp id fun h => ⟨c₂, h⟩
  | popped hne =>
    refine .popped fun heq => hne ?_
    have he : Extends c₁ c := Steps.extends hP hl hs hc₁
    have he' : Extends c c' := h.extends hP hl hc
    have hle := heq ▸ he'.dispatched
    exact (he.dispatched.eq_of_length_le hle.length_le).symm

theorem Waiting.steps (hw : Waiting P target c₁ c₁) (hs : Steps P c₁ c)
    (hc₁ : Sound P settings c₁) (hr : Regular script c₁) : Waiting P target c₁ c := by
  have hreg : ∀ {c}, Steps P c₁ c → Regular script c := by
    intro c hs
    induction hs with
    | refl => exact hr
    | tail _ h ih => exact h.regular ih
  induction hs with
  | refl => exact hw
  | tail hs h ih => exact ih.step hl hP h hs hc₁ (hreg hs)

end Waiting

theorem exists_loop_of_ne_idle {c : Course} (h : c.phase ≠ .idle) : ∃ c', Loop c c' := by
  obtain ⟨g, phase⟩ := c
  cases phase with
  | idle => exact absurd rfl h
  | dispatch e =>
    rcases hh : g.states.handler? e.kind.name with _ | f
    · exact ⟨_, .unhandled hh⟩
    · rcases hg : g.handle f e with ⟨x | _ | target, g'⟩
      · exact ⟨_, .halted hh hg⟩
      · exact ⟨_, .handled hh hg⟩
      · exact ⟨_, .asked hh hg⟩
  | change target =>
    rcases hc : g.states.check target with x | _ | _
    · exact ⟨_, .unknown hc⟩
    · exact ⟨_, .same hc⟩
    · rcases hh : g.states.handler? EventKind.stateExit.name with _ | f
      · exact ⟨_, .other hc hh⟩
      · exact ⟨_, .exiting hc hh⟩
  | exit f target =>
    rcases hg : g.handle f (.ofKind .stateExit []) with ⟨x | r, g'⟩
    · exact ⟨_, .exitHalted hg⟩
    · exact ⟨_, .exited hg⟩
  | clear target => exact ⟨_, .clear g target⟩
  | cancelTimer target => exact ⟨_, .cancelTimer g target⟩
  | cancelSweep target => exact ⟨_, .cancelSweep g target⟩
  | dropListeners target => exact ⟨_, .dropListeners g target⟩
  | enter target => exact ⟨_, .enter g target⟩
  | announce => exact ⟨_, .announce g⟩

theorem Announced.pop {c₁ c₂ c : Course} (h : Announced P c₁ c₂ c) {settings : Settings}
    (hc : Sound P settings c) {e : Event} {q : EventQueue} (hq : c.queue.pop? = some (e, q)) :
    e = .entry ∧ q.ledger.popped = c.dispatched ++ [(c₂.queue.ledger.next, .entry)] := by
  obtain ⟨n, hhead, hpop⟩ := hc.world.accounted.ledger_of_pop? hq
  have hp : c.queue.ledger.pending.head? = some (c₂.queue.ledger.next, .entry) := by
    rw [Ledger.pending, h.high]
    rfl
  cases hhead.symm.trans hp
  exact ⟨rfl, hpop⟩

theorem Announced.exists_pop {c₁ c₂ c : Course} (h : Announced P c₁ c₂ c) {settings : Settings}
    (hc : Sound P settings c) : ∃ q, c.queue.pop? = some (.entry, q) := by
  have hh : c.world.queue.high = [.entry] := by
    rw [← hc.world.accounted.high]
    change c.queue.ledger.high.map (·.2) = _
    rw [h.high]
    rfl
  change ∃ q, c.world.queue.pop? = _
  unfold EventQueue.pop?
  rw [hh]
  exact ⟨_, rfl⟩

theorem Loop.of_clear {target : String} {c c₁ : Course} (h : Loop c c₁)
    (hp : c.phase = .clear target) :
    c₁.queue.ledger = c.queue.ledger.enter .cleared ∧ c₁.phase = .cancelTimer target := by
  cases h with
  | clear =>
    cases hp
    exact ⟨EventQueue.ledger_of_push rfl, rfl⟩
  | _ => cases hp

theorem Extends.not_dispatched {c c₁ c' : Course} (h : Extends c₁ c')
    (hc : c₁.queue.ledger = c.queue.ledger.enter .cleared) {x : Nat × Event} (hx : x ∈ c.pending) :
    x.1 ∉ c'.dispatched.map (·.1) := by
  obtain ⟨cs, hpast⟩ := h
  have hn := c.queue.distinct_ledger.not_popped cs hx
  rwa [← hc, ← EventQueue.ledger_of_past hpast] at hn

section Waiting

variable {settings : Settings} {target : String} {c₁ c c' : Course}
  (hw : Waiting P target c₁ c) (hc : Sound P settings c) (hd : c.dispatched = c₁.dispatched)
include hw hc hd

theorem Waiting.pop (hp : c.phase = .idle) (h : Loop c c') :
    c.engine.states.current = target ∧ ∃ c₂, Announced P c₁ c₂ c ∧ c'.phase = .dispatch .entry ∧
      c'.dispatched = c.dispatched ++ [(c₂.queue.ledger.next, .entry)] := by
  cases h with
  | pop hrun hq =>
    cases hw with
    | leaving hp' => simp at hp'
    | entered hp' => cases hp'
    | popped hne => exact absurd hd hne
    | announced _ _ ht hh =>
      rcases hh with hcl | ⟨c₂, h₂⟩
      · obtain ⟨hhigh, hnormal⟩ := hc.world.accounted.closed hcl
        simp only [world] at hhigh hnormal
        simp [EventQueue.pop?, hhigh, hnormal] at hq
      · obtain ⟨rfl, hpop⟩ := h₂.pop hc hq
        exact ⟨ht, c₂, h₂, rfl, hpop⟩
  | _ => cases hp

theorem Waiting.exists_loop :
    c.queue.closed ∨ c.engine.status ≠ .running ∨ ∃ c', Loop c c' := by
  by_cases hp : c.phase = .idle
  · cases hw with
    | leaving hp' => simp [hp] at hp'
    | entered hp' => cases hp.symm.trans hp'
    | popped hne => exact absurd hd hne
    | announced _ _ _ hh =>
      rcases hh with hcl | ⟨c₂, h₂⟩
      · exact .inl hcl
      · obtain ⟨q, hq⟩ := h₂.exists_pop hc
        by_cases hrun : c.engine.status = .running
        · obtain ⟨g, phase⟩ := c
          cases hp
          exact .inr (.inr ⟨_, .pop hrun hq⟩)
        · exact .inr (.inl hrun)
  · exact .inr (.inr (exists_loop_of_ne_idle hp))

end Waiting

/-- A change of state, from the moment on when it clears the queue: the state is another one that the
script has; no event that was pending is dispatched later; and as long as nothing has been dispatched
since, the only event that can be is the entry announced by this very change, in the new state.  The
main loop comes to that unless the queue is closed or the engine is not running any more. -/
theorem entry_dispatched_next {script : Script} {settings : Settings} {around : Surroundings}
    {target : String} {c c₁ : Course}
    (hc : Reachable (·.high = false) script settings around c) (hp : c.phase = .clear target)
    (h₁ : Loop c c₁) :
    (script.states.contains target ∧ c.engine.states.current ≠ target) ∧
    (∀ c', Steps (·.high = false) c₁ c' →
      ∀ x ∈ c.pending, x.1 ∉ c'.dispatched.map (·.1)) ∧
    (∀ c' c'', Steps (·.high = false) c₁ c' → c'.dispatched = c.dispatched →
      c'.phase = .idle → Loop c' c'' →
        c'.engine.states.current = target ∧
        ∃ c₂ c₃, Steps (·.high = false) c₁ c₂ ∧ c₂.phase = .announce ∧
          c₁.world.Disturbed c₂.world ∧ Loop c₂ c₃ ∧ Steps (·.high = false) c₃ c' ∧
          c''.phase = .dispatch .entry ∧
          c''.dispatched = c'.dispatched ++ [(c₂.queue.ledger.next, .entry)]) ∧
    ∀ c', Steps (·.high = false) c₁ c' → c'.dispatched = c.dispatched →
      c'.queue.closed ∨ c'.engine.status ≠ .running ∨ ∃ c'', Loop c' c'' := by
  have hP : ∀ e : Event, e.Own → e.high = false := fun _ h => h.high
  have hl : ∀ e : Event, e.high = false → e.high = false := fun _ => id
  have hr : Regular script c := hc.regular
  have hs : Sound (·.high = false) settings c₁ := h₁.sound hP (hc.sound hP)
  obtain ⟨hl₁, hp₁⟩ := h₁.of_clear hp
  have hd₁ : c₁.dispatched = c.dispatched := by
    rw [dispatched, hl₁]
    rfl
  have hw {c' : Course} (hs' : Steps (·.high = false) c₁ c') :
      Waiting (·.high = false) target c₁ c' := by
    refine .steps hl hP ?_ hs' hs (h₁.regular hr)
    exact .leaving (.inl hp₁) (.of_past_eq rfl) (.inr (congrArg Ledger.high hl₁))
  refine ⟨?_, ?_, ?_, ?_⟩
  · have hch := hr.clear target hp
    rw [StateMachine.check_eq_ok_true_iff, hr.script_eq] at hch
    exact hch
  · intro c' hs' x hx
    exact (hs'.extends hP hl hs).not_dispatched hl₁ hx
  · intro c' c'' hs' hd' hp' h'
    obtain ⟨ht, c₂, h₂, hph, hpop⟩ :=
      (hw hs').pop (Steps.sound hP hs' hs) (hd'.trans hd₁.symm) hp' h'
    obtain ⟨c₃, h₃, hs₃⟩ := h₂.after
    exact ⟨ht, c₂, c₃, h₂.before, h₂.phase, h₂.disturbed, h₃, hs₃, hph, hpop⟩
  · intro c' hs' hd'
    exact (hw hs').exists_loop (Steps.sound hP hs' hs) (hd'.trans hd₁.symm)

def relay : Script :=
  ⟨[], [], [("default", [("state_entry", ⟨[], [.state "next"]⟩)]), ("next", [])]⟩

theorem exists_reachable_clear (P : Event → Prop) :
    ∃ g, Reachable P relay .default (.plain []) ⟨g, .clear "next"⟩ := by
  obtain ⟨q, -, hc⟩ := exists_reachable_entry P relay rfl .default (.plain [])
  let g := (initial relay .default (.plain [])).engine.start.2.mapWorld (·.setQueue q)
  let g' := (g.handle ⟨[], [.state "next"]⟩ .entry).2
  have hg : g.handle ⟨[], [.state "next"]⟩ .entry = (.ok (some "next"), g') :=
    Prod.ext (Machine.fst_handle_state rfl _ _ _) rfl
  have hst : g'.states = .ofScript relay := (states_of_handle hg).1
  have hc' := hc.tail (.loop (.asked rfl hg))
  exact ⟨g', hc'.tail (.loop (.other (by rw [hst]; decide) (by rw [hst]; rfl)))⟩

theorem entry_dispatched_next_relay :
    ∃ g c₁, Reachable (·.high = false) relay .default (.plain []) ⟨g, .clear "next"⟩ ∧
      Loop ⟨g, .clear "next"⟩ c₁ ∧ g.states.current ≠ "next" ∧
      ∀ c', Steps (·.high = false) c₁ c' → c'.dispatched = dispatched ⟨g, .clear "next"⟩ →
        c'.queue.closed ∨ c'.engine.status ≠ .running ∨ ∃ c'', Loop c' c'' := by
  obtain ⟨g, hg⟩ := exists_reachable_clear (·.high = false)
  obtain ⟨⟨-, hne⟩, -, -, hgo⟩ := entry_dispatched_next hg rfl (.clear g "next")
  exact ⟨g, _, hg, .clear g "next", hne, hgo⟩

end Course

end PrimScript
