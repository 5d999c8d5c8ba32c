import PrimScript.Proofs.Engine.Catalog
import PrimScript.Proofs.Engine.Heard
import PrimScript.Proofs.Engine.Told

/-! Events that do not fit are reported, each once, where someone outside or a function of the library has
brought them.  What the timer brings, or a repeated sweep, is left out without a word: the next tick comes
anyway. -/

namespace PrimScript

/-- What is reported of the events that are brought to the queue, as far as that is settled.  Of answers
that do not fit, and of what a single sweep brings to a closed queue, nothing is said. -/
structure Reports (report : Push → Option Diagnostic) : Prop where
  accepted : ∀ p e, report ⟨p, e, none⟩ = none
  full : ∀ p e kind capacity, p = .outside ∨ p = .function ∨ p = .sweep →
    report ⟨p, e, some (.full kind capacity)⟩ =
      some ⟨.queueOverflow, s!"Event queue is full ({capacity} pending), dropped `{kind.name}`"⟩
  tick : ∀ e x, report ⟨.tick, e, x⟩ = none
  other : ∀ p e x, p ≠ .sweep → (∀ kind capacity, x ≠ .full kind capacity) →
    report ⟨p, e, some x⟩ = none

theorem Push.reports_warning? : Reports Push.warning? where
  accepted p e := by cases p <;> rfl
  full p e kind capacity hp := by rcases hp with rfl | rfl | rfl <;> rfl
  tick e x := rfl
  other p e x hp hx := by
    cases x with
    | full kind capacity => exact absurd rfl (hx kind capacity)
    | _ =>
      cases p with
      | sweep => exact absurd rfl hp
      | _ => rfl

namespace Course

/-- What comes to an engine from outside, and the events that it carries. -/
inductive Carries (g : Engine) : List Event → Engine → Prop
  | unknown {name : String} {args : List Value} {x : EventError} (detected : List Entity) :
    Event.named name args = .error x → Carries g [] (g.injectNamed name args detected).2
  | named {name : String} {args : List Value} {e : Event} (detected : List Entity) :
    Event.named name args = .ok e → Carries g [e.withDetected detected] (g.injectNamed name args detected).2
  | heard (channel : Int32) (name key message : String) :
    Carries g (g.owed channel name key message) (g.hear channel name key message).2
  | touched (name key : String) :
    Carries g ([EventKind.touchStart, .touchEnd].map fun kind =>
      (Event.ofKind kind [.integer 1]).withDetected [g.visitor name key]) (g.touch name key).2
  | sensed (name key : String) :
    Carries g [(Event.ofKind .sensor [.integer 1]).withDetected [g.visitor name key]] (g.sense name key).2

theorem Carries.arrival {g g' : Engine} {es : List Event} (h : Carries g es g') : Arrival g g' := by
  cases h with
  | unknown detected => exact .named _ _ detected
  | named detected => exact .named _ _ detected
  | heard channel name key message => exact .heard channel name key message
  | touched name key => exact .touched name key
  | sensed name key => exact .sensed name key

theorem Carries.brought {g g' : Engine} {es : List Event} (h : Carries g es g')
    (hc : g.world.queue.closed = false) : ∃ ps, g'.world.pushes.toList = g.world.pushes.toList ++ ps ∧
      ps.map Push.offer = es.map (Producer.outside, ·) := by
  cases h with
  | unknown detected hn =>
    rw [Engine.injectNamed, hn]
    exact ⟨[], by simp⟩
  | named detected hn =>
    obtain ⟨kind, args, rfl⟩ := Event.exists_ofKind_of_named hn
    rw [Engine.injectNamed, hn]
    exact (Engine.offered_inject hc rfl).2.brought
  | heard channel name key message => exact (Engine.hear_of_open channel name key message hc).2.brought
  | touched name key =>
    exact (Engine.offered_injectAll hc (by simp [Event.withDetected, Event.ofKind])).2.brought
  | sensed name key =>
    have hp : (g.place (g.visitor name key)).world.queue.closed = false := hc
    exact (Engine.offered_inject hp rfl).2.brought

variable {P : Event → Prop} {script : Script} {settings : Settings} {around : Surroundings}
  {c : Course}

noncomputable def pushes (c : Course) : List Push := c.world.pushes.toList

/-- What has been brought to the queue so far, and what has become of it. -/
structure Accounts (settings : Settings) (c : Course) : Prop where
  accepted : c.queue.accepted = c.pushes.filterMap Push.accepted?
  refused : c.queue.refused = c.pushes.filterMap Push.refused?
  names : ∀ p ∈ c.pushes, p.Names settings.queueCapacity
  reported : c.world.reported .queueOverflow = c.pushes.filterMap Push.warning?
  brought : c.pushes.filterMap Push.brought? = c.calls.flatMap Called.brings

theorem Reachable.accounts (h : Reachable P script settings around c) : c.Accounts settings := by
  obtain ⟨w, hw, ha⟩ := World.exists_fresh_alike settings around
  obtain ⟨ps, hp, hb⟩ : ∃ ps, World.Tells ps w c.world ∧
      ps.filterMap Push.brought? = c.calls.flatMap Called.brings := by
    induction h with
    | refl =>
      have hcalls : (initial script settings around).calls = [] := History.toList_empty
      rw [hcalls]
      exact (World.Told.alike ha).tells
    | tail _ hs ih =>
      obtain ⟨ps, hp, hb⟩ := ih
      obtain ⟨rs, qs, hcalls, hq, hb'⟩ := hs.told.tells
      refine ⟨ps ++ qs, hp.trans hq, ?_⟩
      rw [List.filterMap_append, hb, hb', calls, calls, hcalls, List.flatMap_append]
  obtain rfl : c.pushes = ps := hp.pushes.trans (by simp [hw.pushes])
  have hcapacity : w.queue.capacity = settings.queueCapacity := congrArg EventQueue.capacity hw.queue
  refine ⟨hp.accepted.trans ?_, hp.refused.trans ?_, hcapacity ▸ hp.names, hp.reported.trans ?_, hb⟩
  · simp [hw.queue]
  · simp [hw.queue, EventQueue.refused, EventQueue.empty]
  · simp [World.reported, hw.diagnostics]

/-- Along every course the queue has taken the events that it did not refuse, and what is reported of events
that did not fit is settled push by push, for just those that the queue has refused: in all, and for every step
by the pushes that it adds.  A refusal for want of room names the event and the capacity.  The library brings
what it is called for, and whatever comes from outside leads to such courses again and brings what it carries
to a queue that is open. -/
theorem overflow_told (script : Script) (settings : Settings) (around : Surroundings) :
    ∃ report, Reports report ∧ ∀ c, Reachable (fun _ => True) script settings around c →
      c.queue.accepted = c.pushes.filterMap Push.accepted? ∧
      c.queue.refused = c.pushes.filterMap Push.refused? ∧
      (∀ r ∈ c.queue.refused, ∀ kind capacity, r.error = .full kind capacity →
        kind = r.event.kind ∧ capacity = settings.queueCapacity) ∧
      c.world.reported .queueOverflow = c.pushes.filterMap report ∧
      c.pushes.filterMap Push.brought? = c.calls.flatMap Called.brings ∧
      (∀ c', Step (fun _ => True) c c' → ∃ ps, c'.pushes = c.pushes ++ ps ∧
        c'.queue.refused = c.queue.refused ++ ps.filterMap Push.refused? ∧
        c'.world.reported .queueOverflow = c.world.reported .queueOverflow ++ ps.filterMap report) ∧
      ∀ es g, Carries c.engine es g → Reachable (fun _ => True) script settings around ⟨g, c.phase⟩ ∧
        (c.queue.closed = false → ∃ ps, (⟨g, c.phase⟩ : Course).pushes = c.pushes ++ ps ∧
          ps.map Push.offer = es.map (Producer.outside, ·)) := by
  refine ⟨Push.warning?, Push.reports_warning?, fun c hc => ?_⟩
  have ha := hc.accounts
  refine ⟨ha.accepted, ha.refused, fun r hr kind capacity hx => ?_, ha.reported, ha.brought, fun c' hs => ?_,
    fun es g hg => ⟨?_, hg.brought⟩⟩
  · rw [ha.refused] at hr
    obtain ⟨p, hp, hpr⟩ := List.mem_filterMap.1 hr
    obtain ⟨x, hpx, rfl⟩ := Option.map_eq_some_iff.1 hpr
    exact ha.names p hp kind capacity (hpx.trans (congrArg some hx))
  · obtain ⟨-, ps, -, hp, -⟩ := hs.told.tells
    exact ⟨ps, hp.pushes, hp.refused, hp.reported⟩
  · have hs : Steps Event.Arriving c ⟨g, c.phase⟩ := hg.arrival.steps c.phase
    exact Relation.ReflTransGen.trans hc (hs.mono fun _ _ => trivial)

end Course

section Ticker

def Expr.wind : Expr := .call "llSetTimerEvent" [.literal (.float 1)]

def Handler.wind : Handler := ⟨[], [.expr .wind]⟩

def Script.ticker : Script := ⟨[], [], [("default", [("state_entry", .wind)])]⟩

def Settings.cramped : Settings := { Settings.default with queueCapacity := 1 }

def World.wound (w : World) : World :=
  { w.setPeriodic Span.second (.timer Span.second w.queue.epoch w.entered) with
    timer := some Span.second }

theorem Library.run_setTimerEvent {w : World} (h : w.timer = none) :
    setTimerEvent.run ⟨"llSetTimerEvent", [.float 1], []⟩ w = (.void, w.wound) := by
  have hs : w.setTimer? 1 = some w.wound := by
    have ha : Span.isAsked 1 = true := by decide +kernel
    have hp : World.period? 1 = some Span.second := by decide +kernel
    simp [World.setTimer?, World.cancelTimer, World.wound, h, ha, hp]
  have hc : Call.float ⟨"llSetTimerEvent", [.float 1], []⟩ 0 = 1 := rfl
  simp only [setTimerEvent, hc, hs]

theorem Course.exists_reachable_wound :
    ∃ c q, Reachable (fun _ => True) .ticker .cramped (.plain []) c ∧
      (initial .ticker .cramped (.plain [])).engine.start.2.world.queue.pop? = some (.entry, q) ∧
      c.world = ((initial .ticker .cramped (.plain [])).engine.start.2.world.setQueue q).wound := by
  obtain ⟨q, hq, hc⟩ := exists_reachable_entry (fun _ => True) .ticker rfl .cramped (.plain [])
  obtain ⟨m, hm, hw, -⟩ := hc.call (h := .wind) rfl rfl rfl rfl (fun _ => .cons rfl rfl rfl .nil) rfl
    (Library.run_setTimerEvent rfl)
  exact ⟨_, q, hm, hq, hw⟩

/-- Another event takes the only place, and that the tick is refused is reported nowhere. -/
theorem Course.tick_untold :
    ∃ c r, Reachable (fun _ => True) .ticker .cramped (.plain []) c ∧ r ∈ c.queue.refused ∧
      r.error = .full .timer 1 ∧ c.world.reported .queueOverflow = [] := by
  let touch := Event.ofKind .touchStart [.integer 1]
  obtain ⟨c, q, hc, hq, hw⟩ := exists_reachable_wound
  have h₁ := hc.tail (.outside c (o := .inject touch) trivial)
  have h₂ := h₁.tail (.outside _ (o := .alarm 0) trivial)
  obtain ⟨past, r, hpast, hr, hd⟩ : ∃ (past : History Refusal) (r : Refusal),
      ((c.world.undergo (.inject touch)).undergo (.alarm 0)).queue.refusals = past.push r ∧
      r.error = .full .timer 1 ∧
      ((c.world.undergo (.inject touch)).undergo (.alarm 0)).diagnostics = #[] := by
    rw [hw]
    cases hq
    exact ⟨_, _, rfl, rfl, rfl⟩
  refine ⟨_, r, h₂, ?_, hr, ?_⟩
  · change r ∈ ((c.world.undergo (.inject touch)).undergo (.alarm 0)).queue.refusals.toList
    rw [hpast, History.toList_push]
    exact List.mem_append_right _ (List.mem_singleton.2 rfl)
  · change ((c.world.undergo (.inject touch)).undergo (.alarm 0)).reported .queueOverflow = []
    rw [World.reported, hd]
    rfl

end Ticker

end PrimScript
