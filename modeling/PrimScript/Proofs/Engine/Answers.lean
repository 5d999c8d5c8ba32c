import PrimScript.Proofs.Engine.Failure
import PrimScript.Proofs.Engine.Timely
import PrimScript.Proofs.Eval.Answers
import PrimScript.Proofs.World.Clock

/-! Requests are answered once, as long as the main loop goes on.  Whatever comes in between, also while states
change, the answers that have come, those under way and those that went with the main loop are those that are
owed to the calls made so far, and each tells the key that its own call has given. -/

namespace PrimScript

variable {P : Event → Prop} {b : World.Basis} {k : Nat} {owed : List Answer}

namespace World

variable {w : World}

theorem Fresh.owes {s : Settings} {around : Surroundings} (h : Fresh s around w)
    (hs : s.requests.mode = .stub) : w.Owes P ⟨s, around, false, .empty⟩ 0 [] where
  basis := h.basis
  stub := hs
  given := Nat.zero_le _
  orders := by simp [h.alarms]
  alarmsSet := by simp [h.alarms]
  periods := by simp [h.alarms]
  loops := by simp [h.alarms]
  balance := by
    have hd : w.dropped = .empty := congrArg Basis.dropped h.basis
    simp [came, underWay, gone, h.attempts, h.alarms, hd]
  normal := by simp
  late := by simp [h.attempts]
  admitted := by simp [taken, h.attempts]
  accepted := by simp [taken, h.attempts, h.queue]
  outside := by simp [h.outside]

theorem owes_ofSettings (P : Event → Prop) {s : Settings} (hs : s.requests.mode = .stub)
    (around : Surroundings) : (ofSettings s around).Owes P ⟨s, around, false, .empty⟩ 0 [] := by
  obtain ⟨w, hw, ha⟩ := exists_fresh_alike s around
  exact (hw.owes hs).alike ha

theorem keeps_announceEntry (w : World) : Keeps P w w.announceEntry :=
  fun _ _ _ h => h.bring _ (by simp [Event.entry, Event.ofKind, EventKind.isAnswer])

theorem keeps_dropListeners (w : World) : Keeps P w w.dropListeners := by
  unfold dropListeners
  split
  · exact fun _ _ _ h => h.spares { World.Spares.refl P _ with }
  · exact fun _ _ _ h => h

theorem undergo_alarm (h : w.Owes P b k owed) {a : Alarm} (ha : a ∈ w.alarms) :
    w.undergo (.alarm a.order) = w.fire a := by
  rw [undergo]
  split
  · next b hb =>
    have hba : b.order = a.order := by simpa using List.find?_some hb
    rw [List.inj_on_of_nodup_map h.orders (List.mem_of_find?_eq_some hb) ha hba]
  · next hn => simpa using List.find?_eq_none.1 hn a ha

end World

namespace Engine

theorem exists_world_halt (g : Engine) (x : Halt) :
    ∃ w, World.Keeps P g.world w ∧ (g.halt x).world = w.endLoop := by
  cases x with
  | error e =>
    have hs : World.Spares P g.world ((g.world.report .fatal e.message).setQueue g.world.queue.close) :=
      { World.Spares.refl P g.world with queue := EventQueue.apart_close _ }
    exact ⟨_, fun _ _ _ h => h.spares hs, rfl⟩
  | overlong => exact ⟨g.world, fun _ _ _ h => h, rfl⟩

theorem called_halt (g : Engine) (x : Halt) : (g.halt x).machine.called = g.machine.called := by
  cases x <;> rfl

theorem keeps_shutDown (g : Engine) : World.Keeps P g.world g.shutDown.world :=
  fun _ _ _ h => (h.setQueue (EventQueue.apart_close _)).quiet

end Engine

namespace Course

variable {script : Script} {settings : Settings} {around : Surroundings} {c c' : Course}

def Answers (P : Event → Prop) (c : Course) : Prop := c.world.Answers P c.world.basis c.calls

/-- What a step means for the main loop: it goes on, it ends, or it starts. -/
inductive Turns (c : Course) : Course → Prop
  | on {c' : Course} : c'.world.basis = c.world.basis →
    (c'.engine.status = .created → c.engine.status = .created) →
    (c.engine.status = .stuck → c'.engine.status = .stuck ∨ c'.queue.closed) → Turns c c'
  | ends {c' : Course} {w : World} : w.basis = c.world.basis → c'.world = w.endLoop →
    c'.engine.status ≠ .created → c'.engine.status = .stuck ∨ c'.queue.closed → Turns c c'
  | starts {c' : Course} : c.engine.status = .created → c'.engine.status = .running →
    c'.world.basis = { c.world.basis with looping := true } → Turns c c'

theorem Turns.aside {g : Engine} {phase phase' : Phase} {w : World → World}
    (h : (w g.world).basis = g.world.basis) : Turns ⟨g, phase⟩ ⟨g.mapWorld w, phase'⟩ :=
  .on h id .inl

theorem Turns.refl (g : Engine) (phase phase' : Phase) : Turns ⟨g, phase⟩ ⟨g, phase'⟩ := .on rfl id .inl

section Answered

variable {g g' : Engine} {phase : Phase}

theorem Answers.keeps (hc : Answers P ⟨g, phase⟩) {w : World → World} (hw : World.Keeps P g.world (w g.world))
    (phase' : Phase) :
    Answers P ⟨g.mapWorld w, phase'⟩ ∧ Turns ⟨g, phase⟩ ⟨g.mapWorld w, phase'⟩ := by
  have ha := World.Answers.keeps hc hw
  have hb : (w g.world).basis = g.world.basis := ha.basis
  refine ⟨?_, .aside hb⟩
  rw [Answers]
  exact hb ▸ ha

theorem Answers.handle (hc : Answers P ⟨g, phase⟩) {h : Handler} {e : Event}
    {r : Except Halt (Option String)} (hg : g.handle h e = (r, g')) (phase' : Phase) :
    Answers P ⟨g', phase'⟩ ∧ g'.world.basis = g.world.basis ∧ g'.status = g.status := by
  cases hg
  have ha := Machine.answers_handle g.script h e hc
  have hb := ha.basis
  refine ⟨?_, hb, rfl⟩
  rw [Answers]
  exact hb ▸ ha

theorem Answers.handled (hc : Answers P ⟨g, phase⟩) {h : Handler} {e : Event}
    {r : Except Halt (Option String)} (hg : g.handle h e = (r, g')) (phase' : Phase) :
    Answers P ⟨g', phase'⟩ ∧ Turns ⟨g, phase⟩ ⟨g', phase'⟩ := by
  obtain ⟨ha, hb, hs⟩ := hc.handle hg phase'
  exact ⟨ha, .on hb (fun h => hs ▸ h) fun h => .inl (hs.trans h)⟩

theorem Answers.halt (ha : Answers P ⟨g', phase⟩) (hb : g'.world.basis = g.world.basis) (x : Halt) :
    Answers P ⟨g'.halt x, .idle⟩ ∧ Turns ⟨g, phase⟩ ⟨g'.halt x, .idle⟩ := by
  obtain ⟨w, hk, hw⟩ := g'.exists_world_halt (P := P) x
  have hkept := World.Answers.keeps ha hk
  have hcalls : calls ⟨g'.halt x, .idle⟩ = calls ⟨g', phase⟩ :=
    congrArg History.toList (g'.called_halt x)
  have hworld : (⟨g'.halt x, .idle⟩ : Course).world = w.endLoop := hw
  refine ⟨?_, .ends (hkept.basis.trans hb) hworld ?_ ?_⟩
  · rw [Answers, hcalls, hworld]
    exact hkept.endLoop
  · cases x <;> nofun
  · cases x with
    | error e => exact .inr rfl
    | overlong => exact .inl rfl

end Answered

theorem Loop.answers (h : Loop c c') (hc : c.Answers P) : c'.Answers P ∧ c.Turns c' := by
  cases h with
  | pop hs hq => exact hc.keeps (fun _ _ _ h => h.setQueue (.of_pop? hq)) _
  | unhandled => exact ⟨hc, .refl _ _ _⟩
  | handled hh hg => exact hc.handled hg _
  | asked hh hg => exact hc.handled hg _
  | halted hh hg =>
    obtain ⟨ha, hb, -⟩ := hc.handle hg _
    exact ha.halt hb _
  | @unknown g target e => exact hc.halt rfl (.error e)
  | same => exact ⟨hc, .refl _ _ _⟩
  | other => exact ⟨hc, .refl _ _ _⟩
  | exiting => exact ⟨hc, .refl _ _ _⟩
  | exited hg => exact hc.handled hg _
  | exitHalted hg =>
    obtain ⟨ha, hb, -⟩ := hc.handle hg _
    exact ha.halt hb _
  | clear => exact hc.keeps (fun _ _ _ h => h.setQueue (EventQueue.apart_nextEpoch _)) _
  | cancelTimer => exact hc.keeps (fun _ _ _ h => h.cancelTimer) _
  | cancelSweep => exact hc.keeps (fun _ _ _ h => h.cancelSweep) _
  | dropListeners => exact hc.keeps (World.keeps_dropListeners _) _
  | enter => exact ⟨World.Answers.keeps hc fun _ _ _ h => h.spares { World.Spares.refl P _ with },
      .on rfl id .inl⟩
  | announce => exact hc.keeps (World.keeps_announceEntry _) _

theorem Answers.start {g : Engine} (hc : Answers P ⟨g, .idle⟩) :
    Answers P ⟨g.start.2, .idle⟩ ∧ Turns ⟨g, .idle⟩ ⟨g.start.2, .idle⟩ := by
  have hb := Machine.answers_bindGlobals g.script (m := g.machine) hc
  have hs := g.starts_start
  generalize g.start = r at hs ⊢
  cases hs with
  | already => exact ⟨hc, .refl _ _ _⟩
  | @halted x m _ h =>
    rw [h] at hb
    have hbasis : m.world.basis = g.world.basis := hb.basis
    have hm : Answers P ⟨{ g with machine := m }, .idle⟩ := by
      rw [Answers]
      exact hbasis ▸ hb
    exact hm.halt hbasis x
  | @refused m x hcr h =>
    rw [h] at hb
    have ha := hb.keeps (World.keeps_announceEntry _)
    have hbasis : m.world.announceEntry.basis = g.world.basis := ha.basis
    refine ⟨?_, .on hbasis id .inl⟩
    rw [Answers]
    exact hbasis ▸ ha
  | @running m hcr h =>
    rw [h] at hb
    have ha := hb.keeps (World.keeps_announceEntry _)
    have hbasis : m.world.announceEntry.basis = g.world.basis := ha.basis
    have hloop : ({ m.world.announceEntry with looping := true } : World).basis =
        { g.world.basis with looping := true } := by rw [← hbasis]; rfl
    refine ⟨?_, .starts hcr rfl hloop⟩
    rw [Answers]
    exact hloop ▸ ha.startLoop

theorem Step.answers (h : Step P c c') (hc : c.Answers P) : c'.Answers P ∧ c.Turns c' := by
  cases h with
  | loop h => exact h.answers hc
  | start g => exact hc.start
  | stop c =>
    have ha := World.Answers.keeps hc (Engine.keeps_shutDown c.engine)
    have hb : c.engine.shutDown.world.basis = c.world.basis := ha.basis
    refine ⟨?_, .on hb (fun h => ?_) fun _ => ?_⟩
    · rw [Answers]
      exact hb ▸ ha
    · rcases c.engine.status_shutDown with h' | h' <;> cases h'.symm.trans h
    · exact .inr (Engine.closed_shutDown c.engine)
  | ended g hs hq => exact ⟨World.Answers.endLoop hc, .ends rfl rfl hs (.inr hq)⟩
  | outside c ho => exact Answers.keeps hc (fun _ _ _ h => h.undergo ho) _
  | foresee c ho => exact Answers.keeps hc (fun _ _ _ h => h.foresee ho) _

/-- What went with the main loop was asked for while it ran; and nothing goes before it has ended. -/
structure Lasts (c : Course) : Prop where
  inLoop : ∀ a ∈ c.world.dropped.toList, a.inLoop
  ended : c.world.dropped.toList ≠ [] →
    c.world.looping = false ∧ (c.engine.status = .stuck ∨ c.queue.closed)
  created : c.engine.status = .created → c.world.looping = false ∧ c.world.dropped.toList = []

theorem Turns.lasts (h : c.Turns c') (hclosed : c.queue.closed → c'.queue.closed) (hc : c.Lasts) :
    c'.Lasts ∧ ∃ as, c'.world.dropped.toList = c.world.dropped.toList ++ as := by
  cases h with
  | on hb hcr hst =>
    have hd : c'.world.dropped = c.world.dropped := congrArg World.Basis.dropped hb
    have hl : c'.world.looping = c.world.looping := congrArg World.Basis.looping hb
    refine ⟨⟨hd ▸ hc.inLoop, fun hne => ?_, fun hs => ?_⟩, [], by rw [hd, List.append_nil]⟩
    · rw [hd] at hne
      rw [hl]
      obtain ⟨hloop, hs | hq⟩ := hc.ended hne
      · exact ⟨hloop, hst hs⟩
      · exact ⟨hloop, .inr (hclosed hq)⟩
    · rw [hd, hl]
      exact hc.created (hcr hs)
  | @ends w hb hw hcr hst =>
    have hd : c'.world.dropped.toList = c.world.dropped.toList ++ w.alarms.filter (·.inLoop) := by
      have hdw : w.dropped = c.world.dropped := congrArg World.Basis.dropped hb
      rw [hw, World.endLoop, History.toList_append, hdw]
    have hl : c'.world.looping = false := by rw [hw]; rfl
    refine ⟨⟨?_, fun _ => ⟨hl, hst⟩, fun hs => absurd hs hcr⟩, _, hd⟩
    rw [hd, List.forall_mem_append]
    exact ⟨hc.inLoop, fun a ha => (List.mem_filter.1 ha).2⟩
  | starts hcr hr hb =>
    have hd : c'.world.dropped = c.world.dropped := congrArg World.Basis.dropped hb
    refine ⟨⟨hd ▸ hc.inLoop, fun hne => ?_, fun hs => ?_⟩, [], by rw [hd, List.append_nil]⟩
    · rw [hd] at hne
      exact absurd (hc.created hcr).2 hne
    · cases hr.symm.trans hs

theorem closed_of_step (hr : Reachable P script settings around c) (h : Step P c c')
    (hc : c.queue.closed) : c'.queue.closed := by
  have hP : ∀ e : Event, e.Own → (fun _ => True) e := fun _ _ => trivial
  have hw : c.world.Holds fun _ => True := ((hr.mono fun _ _ => trivial).sound hP).world.holds
  have hbring (w : World) (hq : w.queue.closed) : w.announceEntry.queue.closed :=
    (World.acts_announceEntry (P := fun _ => True) (R := True) w trivial).closed hq
  rcases (h.mono fun _ _ => trivial).cases_aside hP hw with h | ⟨g, rfl, rfl⟩ | ⟨-, -, -, ha⟩
  · cases h with
    | @pop g e q hs hq =>
      change q.closed = true
      unfold EventQueue.pop? at hq
      split at hq <;> cases hq <;> exact hc
    | unhandled => exact hc
    | handled hh hg => exact (acts_handle hP hw hg).closed hc
    | asked hh hg => exact (acts_handle hP hw hg).closed hc
    | halted hh hg => exact ((acts_handle hP hw hg).trans (Engine.acts_halt _ _)).closed hc
    | unknown => exact (World.acts_closed (P := fun _ => True) _ _).closed hc
    | same => exact hc
    | other => exact hc
    | exiting => exact hc
    | exited hg => exact (acts_handle hP hw hg).closed hc
    | exitHalted hg => exact ((acts_handle hP hw hg).trans (Engine.acts_halt _ _)).closed hc
    | clear => exact hc
    | cancelTimer => exact (World.Acts.cancelTimer (P := fun _ => True) (R := False) _).closed hc
    | cancelSweep => exact (World.Acts.cancelSweep (P := fun _ => True) (R := False) _).closed hc
    | dropListeners => exact (World.acts_dropListeners (P := fun _ => True) _).closed hc
    | enter => exact hc
    | announce => exact hbring _ hc
  · have hb := acts_bindGlobals hP g hw
    have hs := g.starts_start
    generalize g.start = r at hs ⊢
    cases hs with
    | already => exact hc
    | @halted x m _ h =>
      rw [h] at hb
      exact (hb.trans (Engine.acts_halt { g with machine := m } x)).closed hc
    | refused _ h =>
      rw [h] at hb
      exact hbring _ (hb.closed hc)
    | running _ h =>
      rw [h] at hb
      exact hbring _ (hb.closed hc)
  · exact ha.closed hc

theorem Turns.around_eq (h : c.Turns c') : c'.world.around = c.world.around := by
  cases h with
  | on hb => exact congrArg World.Basis.around hb
  | ends hb hw =>
    rw [hw]
    exact congrArg World.Basis.around hb
  | starts _ _ hb => exact congrArg World.Basis.around hb

theorem lasts_initial (script : Script) (settings : Settings) (around : Surroundings) :
    (initial script settings around).Lasts := by
  obtain ⟨w, hw, ha⟩ := World.exists_fresh_alike settings around
  have hb := ha.basis.trans hw.basis
  have hd : (initial script settings around).world.dropped = .empty := congrArg World.Basis.dropped hb
  have hl : (initial script settings around).world.looping = false := congrArg World.Basis.looping hb
  exact ⟨by simp [hd], fun hne => absurd (by simp [hd]) hne, fun _ => ⟨hl, by simp [hd]⟩⟩

theorem Reachable.answers (h : Reachable P script settings around c)
    (hs : settings.requests.mode = .stub) : c.Answers P ∧ c.Lasts ∧ c.world.around = around := by
  induction h with
  | refl =>
    have hcalls : (initial script settings around).calls = [] := History.toList_empty
    have hw := World.owes_ofSettings P hs around
    refine ⟨?_, lasts_initial _ _ _, congrArg World.Basis.around hw.basis⟩
    rw [Answers, hcalls]
    exact ⟨⟨0, hw.basis ▸ hw, by simp⟩, by simp, by simp, .nil⟩
  | tail hr h ih =>
    obtain ⟨ha, ht⟩ := h.answers ih.1
    exact ⟨ha, (ht.lasts (closed_of_step hr h) ih.2.1).1, ht.around_eq.trans ih.2.2⟩

theorem Steps.gone (hr : Reachable P script settings around c) (hs : settings.requests.mode = .stub)
    (h : Steps P c c') : ∃ as, c'.world.gone = c.world.gone ++ as := by
  induction h with
  | refl => exact ⟨[], (List.append_nil _).symm⟩
  | @tail c' c'' h hstep ih =>
    have hr' : Reachable P script settings around c' := Relation.ReflTransGen.trans hr h
    obtain ⟨as, hgone⟩ := ih
    obtain ⟨ha, hl, -⟩ := hr'.answers hs
    obtain ⟨-, bs, hd⟩ := (hstep.answers ha).2.lasts (closed_of_step hr' hstep) hl
    refine ⟨as ++ bs.filterMap Alarm.answer?, ?_⟩
    rw [World.gone, hd, List.filterMap_append, ← World.gone, hgone, List.append_assoc]

theorem mapWorld_congr {f g : World → World} (h : f c.world = g c.world) :
    c.mapWorld f = c.mapWorld g := by
  have hw : f c.engine.machine.world = g c.engine.machine.world := h
  rw [mapWorld, Engine.mapWorld, hw, mapWorld, Engine.mapWorld]

theorem steps_fireBefore (h : c.world.Owes P b k owed) (stop fuel : Nat) :
    Steps P c (c.mapWorld (World.fireBefore stop fuel)) := by
  induction fuel generalizing c with
  | zero => exact Relation.ReflTransGen.refl
  | succ fuel ih =>
    have stays (hw : World.fireBefore stop (fuel + 1) c.world = c.world) :
        Steps P c (c.mapWorld (World.fireBefore stop (fuel + 1))) := by
      rw [mapWorld_congr (g := id) hw]
      exact Relation.ReflTransGen.refl
    cases hn : c.world.nextAlarm? with
    | none => exact stays (by rw [World.fireBefore, hn])
    | some a =>
      by_cases hs : Span.nextMilli a.due < stop
      · have ha := World.mem_of_nextAlarm? hn
        have hu := World.undergo_alarm h ha
        have hstep : Step P c (c.mapWorld (·.undergo (.alarm a.order))) :=
          .outside c (o := .alarm a.order) trivial
        have hrest := ih (c := c.mapWorld (·.undergo (.alarm a.order)))
          (h.undergo (o := .alarm a.order) trivial)
        have hw : World.fireBefore stop (fuel + 1) c.world =
            World.fireBefore stop fuel (c.world.undergo (.alarm a.order)) := by
          rw [World.fireBefore, hn, hu]
          exact if_pos hs
        rw [mapWorld_congr
          (g := fun w => World.fireBefore stop fuel (w.undergo (.alarm a.order))) hw]
        exact (Steps.one hstep).trans hrest
      · exact stays (by rw [World.fireBefore, hn]; exact if_neg hs)

/-- Under its key an answer, and no other, has come, is under way or went with the main loop; and unless it
went, it comes as time passes. -/
structure Delivers (P : Event → Prop) (c : Course) (id : String) (a : Answer) : Prop where
  once : (c.world.came ++ c.world.underWay ++ c.world.gone).filter (·.key? = some id) = [a]
  comes : a ∉ c.world.gone → ∀ stop, Span.nextMilli a.due < stop → ∃ n, ∀ fuel, n ≤ fuel →
    Steps P c (c.mapWorld (World.fireBefore stop fuel)) ∧
      (World.fireBefore stop fuel c.world).came.filter (·.key? = some id) = [a]

theorem delivers_of_owes (h : c.world.Owes P b k owed) {id : String} {a : Answer}
    (ha : owed.filter (·.key? = some id) = [a]) : c.Delivers P id a where
  once := by
    have hp := h.balance.filter (·.key? = some id)
    rw [ha] at hp
    exact List.perm_singleton.1 hp
  comes hgone stop hs := by
    have hmem {x : Answer} (hx : x ∈ owed) (hid : decide (x.key? = some id) = true) : x = a :=
      List.mem_singleton.1 (ha ▸ List.mem_filter.2 ⟨hx, hid⟩)
    refine ⟨c.world.leadTo stop, fun fuel hf => ⟨steps_fireBefore h stop fuel, ?_⟩⟩
    have hw := h.fireBefore stop fuel
    have hnone : (World.fireBefore stop fuel c.world).underWay.filter (·.key? = some id) = [] := by
      refine List.filter_eq_nil_iff.2 fun x hx hid => ?_
      have hle := World.le_of_mem_underWay_fireBefore h hf hx
      rw [hmem (hw.mem_underWay hx) hid] at hle
      exact Nat.not_lt_of_le hle hs
    have hleft : (World.fireBefore stop fuel c.world).gone.filter (·.key? = some id) = [] := by
      have hd : (World.fireBefore stop fuel c.world).dropped = c.world.dropped :=
        congrArg World.Basis.dropped (hw.basis.trans h.basis.symm)
      rw [World.gone, hd]
      refine List.filter_eq_nil_iff.2 fun x hx hid => hgone ?_
      rwa [← hmem (h.balance.mem_iff.1 (List.mem_append_right _ hx)) hid]
    have hp := hw.balance.filter (·.key? = some id)
    rw [List.filter_append, List.filter_append, hnone, hleft, List.append_nil, List.append_nil, ha] at hp
    exact List.perm_singleton.1 hp

/-- What has become of a call that asks: it has given a key, under which its own answer comes once and not
before it is due, or reported an argument that is not valid, and then nothing is to be told. -/
inductive Asked (P : Event → Prop) (c : Course) (r : Called) : Prop
  | answered {id : String} {kind : EventKind} {args : List Value} :
    r.key? = some id → r.Tells kind args → c.Delivers P id (r.answerOf id kind args) → Asked P c r
  | invalid {reason : String} :
    r.reply = .invalid reason → r.key? = none → (∀ kind args, ¬ r.Tells kind args) → Asked P c r

/-- Every call that asks has either given a key, under which its own answer comes once and not before it is
due, or reported an argument that is not valid.  Only what was asked for while the main loop ran goes with
it, when it has ended, and then all of that does which is still under way.  No other answers come, the queue
takes those that find it open and with room, and it takes no others but what comes from outside. -/
theorem answered_once (h : Reachable P script settings around c) (hs : settings.requests.mode = .stub)
    (distinct : ∀ i < c.world.keysGiven, ∀ j < c.world.keysGiven,
      around.keys.key i = around.keys.key j → i = j) :
    (∀ r ∈ c.calls, r.call.name ∈ Library.askingNames → Asked P c r) ∧
    (∃ owed, List.Forall₂ Called.Answered
        (c.calls.filter fun r => r.call.name ∈ Library.askingNames ∧ r.key?.isSome) owed ∧
      (c.world.came ++ c.world.underWay ++ c.world.gone).Perm owed) ∧
    (∀ a ∈ c.world.gone, a.inLoop ∧ c.world.looping = false ∧
      (c.engine.status = .stuck ∨ c.queue.closed)) ∧
    (c.world.looping = false → ∀ a ∈ c.world.underWay, a.inLoop = false) ∧
    (∀ c', Steps P c c' → ∃ as, c'.world.gone = c.world.gone ++ as) ∧
    (∀ x ∈ c.world.attempts.toList, Span.nextMilli x.alarm.due ≤ x.time) ∧
    c.world.taken.Sublist c.queue.accepted ∧
    ∀ p, EventQueue.Internal P p → c.queue.accepted.filter p = c.world.taken.filter p := by
  obtain ⟨ha, hl, haround⟩ := h.answers hs
  obtain ⟨k, hw, -⟩ := ha.owes
  refine ⟨fun r hr hra => ?_, ⟨_, ha.forall₂_answered, hw.balance⟩, fun x hx => ?_, fun hloop x hx => ?_,
    fun c' hsteps => hsteps.gone h hs, hw.late, hw.admitted, hw.accepted⟩
  · rcases ha.heard r hr hra with ⟨a, hk, har⟩ | ⟨reason, hreason, hk, hn⟩
    · have hd := delivers_of_owes hw (ha.filter_key? (haround ▸ distinct) hr hk har)
      obtain ⟨id, kind, args, hid, ht, rfl⟩ := Called.answer?_eq_some_iff.1 har
      cases hk.symm.trans hid
      exact .answered hk ht hd
    · refine .invalid hreason hk fun kind args ht => ?_
      cases hn.symm.trans (Called.told?_eq_some_iff.2 ht)
  · obtain ⟨a, hmem, hax⟩ := List.mem_filterMap.1 hx
    rw [(Alarm.of_answer? hax).2]
    exact ⟨hl.inLoop a hmem, hl.ended (List.ne_nil_of_mem hmem)⟩
  · obtain ⟨a, hmem, hax⟩ := List.mem_filterMap.1 hx
    rw [(Alarm.of_answer? hax).2]
    by_contra hin
    have hon : c.world.looping = true := hw.loops a hmem (by simpa using hin)
    rw [hloop] at hon
    cases hon

end Course

section Asking

open Eval Library

def Handler.ofCall (name : String) (es : List Expr) : Handler := ⟨[], [.expr (.call name es)]⟩

def Script.ofCall (name : String) (es : List Expr) : Script :=
  ⟨[], [], [("default", [("state_entry", .ofCall name es),
    ("touch_start", ⟨[⟨.integer, "touches"⟩], [.jump "nowhere"]⟩)])]⟩

def Settings.furnished : Settings :=
  { Settings.default with
    requests := { Settings.default.requests with replies := [("a", ⟨200, "hello"⟩)] }
    notecards := [("rules", ["one", "two"])] }

theorem Library.find?_asking {f : LibraryFunction} (hf : f ∈ asking) : find? f.name = some f := by
  have before : ∀ g ∈ speech ++ time ++ sensing ++ self ++ math ++ texts ++ lists, g.name ∉ askingNames := by
    decide +kernel
  have hall : all = (speech ++ time ++ sensing ++ self ++ math ++ texts ++ lists) ++
      (asking ++ (requests.drop 4 ++ extensions)) := by
    simp only [all, List.append_assoc]
    rfl
  have hbefore : (speech ++ time ++ sensing ++ self ++ math ++ texts ++ lists).find? (·.name = f.name) =
      none := by
    refine List.find?_eq_none.2 fun g hg hn => before g hg ?_
    rw [decide_eq_true_eq] at hn
    exact hn ▸ List.mem_map_of_mem hf
  have hfound : asking.find? (·.name = f.name) = some f := by
    simp only [asking, List.mem_cons, List.not_mem_nil, or_false] at hf
    rcases hf with rfl | rfl | rfl | rfl <;> rfl
  rw [find?, hall, List.find?_append, hbefore, Option.none_or, List.find?_append, hfound, Option.some_or]

theorem Course.exists_reachable_asked (P : Event → Prop) {f : LibraryFunction} (hf : f ∈ asking)
    {es : List Expr} {args : List Value} (hargs : ∀ s, Expr.Given s f.params es args) {kind : EventKind}
    {told : List Value} (ht : ∀ w reply, w.settings = .furnished →
      (Called.mk w ⟨f.name, args, []⟩ reply).Tells kind told) :
    ∃ c r, Reachable P (.ofCall f.name es) .furnished (.plain []) c ∧ c.world.keysGiven = 3 ∧
      r ∈ c.calls ∧ r.call.name = f.name ∧ r.key? = some (Key.fresh 2) ∧ r.Tells kind told := by
  obtain ⟨q, hq, hc⟩ := exists_reachable_entry P (.ofCall f.name es) rfl .furnished (.plain [])
  let g := (initial (.ofCall f.name es) .furnished (.plain [])).engine.start.2.mapWorld (·.setQueue q)
  have hasks : Asks g.world ⟨f.name, args, []⟩ (f.run ⟨f.name, args, []⟩ g.world) :=
    asks_of_mem hf rfl rfl
  obtain ⟨w, hrun, hkeys⟩ : ∃ w, f.run ⟨f.name, args, []⟩ g.world = (.value (.key (Key.fresh 2)), w) ∧
      w.keysGiven = 3 := by
    generalize f.run ⟨f.name, args, []⟩ g.world = result at hasks ⊢
    cases hasks with
    | puts w' _ _ _ _ _ given => exact ⟨_, rfl, given⟩
    | refuses _ told => cases (told .void).symm.trans (Called.told?_eq_some_iff.2 (ht _ _ rfl))
  obtain ⟨m, hm, hw, hcalled⟩ := Reachable.call (g := g) (h := .ofCall f.name es) hc rfl rfl rfl
    (find?_asking hf) hargs rfl hrun
  have hr : callOf f args [] g.world = ⟨g.world, ⟨f.name, args, []⟩, .value (.key (Key.fresh 2))⟩ := by
    rw [callOf, hrun]
  refine ⟨_, callOf f args [] g.world, hm, ?_, ?_, rfl, ?_, ?_⟩
  · change m.world.keysGiven = 3
    rw [hw, hkeys]
  · change _ ∈ m.called.toList
    rw [hcalled, History.toList_push]
    exact List.mem_append_right _ (List.mem_singleton.2 rfl)
  · rw [hr]
    exact Asks.key?_freshKey g.world _
  · exact ht _ _ rfl

def Course.Delivered (f : LibraryFunction) (es : List Expr) (kind : EventKind) (told : List Value) : Prop :=
  ∃ c r a, Reachable (fun _ => False) (.ofCall f.name es) .furnished (.plain []) c ∧ r ∈ c.calls ∧
    r.key? = some (Key.fresh 2) ∧ a.event = .ofKind kind (.key (Key.fresh 2) :: told) ∧
    c.Delivers (fun _ => False) (Key.fresh 2) a

theorem Course.answered_once_furnished :
    Delivered httpRequest [.literal (.string "a"), .list [], .literal (.string "")] .httpResponse
      [.integer 200, .list [], .string "hello"] ∧
    Delivered getNotecardLine [.literal (.string "rules"), .literal (.integer 1)] .dataserver
      [.string "two"] ∧
    Delivered getNumberOfNotecardLines [.literal (.string "rules")] .dataserver [.string "2"] ∧
    Delivered requestAgentData [.literal (.string ""), .literal (.integer 3)] .dataserver
      [.string "2006-01-01"] := by
  have distinct : ∀ i < 3, ∀ j < 3, Key.fresh i = Key.fresh j → i = j := by decide +kernel
  have delivered {f : LibraryFunction} (hf : f ∈ asking) {es : List Expr} (args : List Value)
      (hargs : ∀ s, Expr.Given s f.params es args) {kind : EventKind} {told : List Value}
      (ht : ∀ w reply, w.settings = .furnished →
        (Called.mk w ⟨f.name, args, []⟩ reply).Tells kind told) : Delivered f es kind told := by
    obtain ⟨c, r, hc, hk, hr, hn, hid, htells⟩ := exists_reachable_asked (fun _ => False) hf hargs ht
    obtain ⟨hcalls, -⟩ := answered_once hc rfl (hk ▸ distinct)
    cases hcalls r hr (hn ▸ List.mem_map_of_mem hf) with
    | answered hid' ht' hd =>
      cases hid.symm.trans hid'
      cases (Called.told?_eq_some_iff.2 htells).symm.trans (Called.told?_eq_some_iff.2 ht')
      exact ⟨c, r, _, hc, hr, hid, rfl, hd⟩
    | invalid _ hn => cases hid.symm.trans hn
  have rules {w : World} (hw : w.settings = .furnished) : w.Notecard "rules" ["one", "two"] :=
    .given (by rw [hw]; rfl)
  refine ⟨delivered (by simp [asking]) [.string "a", .list [], .string ""] ?_ ?_,
    delivered (by simp [asking]) [.string "rules", .integer 1] ?_ ?_,
    delivered (by simp [asking]) [.string "rules"] ?_ ?_,
    delivered (by simp [asking]) [.ofKey "", .integer 3] ?_ ?_⟩
  · exact fun _ => .cons rfl rfl rfl <| .cons rfl rfl rfl <| .cons rfl rfl rfl .nil
  · exact fun w _ hw => @Called.Tells.reply _ ⟨200, "hello"⟩ rfl (by rw [hw]; rfl)
  · exact fun _ => .cons rfl rfl rfl <| .cons rfl rfl rfl .nil
  · exact fun w _ hw => .line rfl (rules hw) (@LineOf.line _ _ ["one"] [] _ rfl rfl)
  · exact fun _ => .cons rfl rfl rfl .nil
  · intro w reply hw
    have h : (Called.mk w ⟨getNumberOfNotecardLines.name, [.string "rules"], []⟩ reply).Tells .dataserver
        [.string (toString ["one", "two"].length)] := .number rfl (rules hw)
    exact h
  · exact fun _ => .cons rfl rfl rfl <| .cons rfl rfl rfl .nil
  · exact fun w _ _ => .agent rfl (World.nameOf_eq_iff.1 rfl) .born

theorem Course.Ended.lost {script : Script} {settings : Settings} {around : Surroundings} {e : EvalError}
    {c c' : Course} (h : Ended e c c) (hc : Reachable (fun _ => True) script settings around c)
    (hs : settings.requests.mode = .stub) {r : Called} (hcalls : c.calls = [r]) {a : Answer}
    (ha : r.answer? = some a) (hin : a.inLoop) (hloop : c.world.looping = false) (hcame : c.world.came = [])
    (hsteps : Steps (fun _ => True) c c') : c'.world.came = [] ∧ c'.world.underWay = [] := by
  have owed {x : Course} (hx : x.calls = [r]) (hr : Reachable (fun _ => True) script settings around x) :
      ∃ k, x.world.Owes (fun _ => True) x.world.basis k [a] := by
    obtain ⟨k, hw, -⟩ := (hr.answers hs).1.owes
    rw [hx, List.filterMap_cons_some ha] at hw
    exact ⟨k, hw⟩
  obtain ⟨k, hw⟩ := owed hcalls hc
  have hnone : c.world.underWay = [] := by
    refine List.eq_nil_iff_forall_not_mem.2 fun x hx => ?_
    obtain ⟨b, hb, hbx⟩ := List.mem_filterMap.1 hx
    have hbin : b.inLoop := by
      rw [← (Alarm.of_answer? hbx).2, List.mem_singleton.1 (hw.mem_underWay hx)]
      exact hin
    exact absurd (hw.loops b hb hbin) (by rw [show c.world.basis.looping = c.world.looping from rfl, hloop]; nofun)
  have hgone : c.world.gone = [a] := by
    have hp := hw.balance
    rw [hcame, hnone] at hp
    exact List.perm_singleton.1 hp
  obtain ⟨as, hgone'⟩ := Steps.gone hc hs hsteps
  have hcalls' : c'.calls = [r] := by
    rw [calls, (h.steps hc hsteps).machine]
    exact hcalls
  obtain ⟨k', hw'⟩ := owed hcalls' (Relation.ReflTransGen.trans hc hsteps)
  have hlen := hw'.balance.length_eq
  rw [hgone', hgone] at hlen
  simp only [List.length_append, List.length_singleton] at hlen
  exact ⟨List.eq_nil_of_length_eq_zero (by omega), List.eq_nil_of_length_eq_zero (by omega)⟩

/-- A request is made, and while its answer is under way a jump to nowhere ends the script: the answer never
comes. -/
theorem Course.request_lost :
    ∃ c r id, Reachable (fun _ => True) (.ofCall "llHTTPRequest" [.literal (.string "a"), .list [],
        .literal (.string "")]) .furnished (.plain []) c ∧ r ∈ c.calls ∧ r.call.name = "llHTTPRequest" ∧
      r.key? = some id ∧ ∀ c', Steps (fun _ => True) c c' → c'.world.came = [] ∧ c'.world.underWay = [] := by
  let P : Event → Prop := fun _ => True
  let es : List Expr := [.literal (.string "a"), .list [], .literal (.string "")]
  let touch := Event.ofKind .touchStart [.integer 1]
  let h : Handler := ⟨[⟨.integer, "touches"⟩], [.jump "nowhere"]⟩
  obtain ⟨q, hq, hc⟩ := exists_reachable_entry P (.ofCall "llHTTPRequest" es) rfl .furnished (.plain [])
  let g := (initial (.ofCall "llHTTPRequest" es) .furnished (.plain [])).engine.start.2.mapWorld
    (·.setQueue q)
  let call : Call := ⟨"llHTTPRequest", [.string "a", .list [], .string ""], []⟩
  let r : Called := ⟨g.world, call, .value (.key g.world.freshKey.1)⟩
  have told (reply : Reply) : (Called.mk g.world call reply).told? =
      some (.httpResponse, [.integer 200, .list [], .string "hello"]) :=
    Called.told?_eq_some_iff.2 (@Called.Tells.reply _ ⟨200, "hello"⟩ rfl rfl)
  obtain ⟨m, hm, hw, hcalled⟩ := Reachable.call (g := g) (h := .ofCall "llHTTPRequest" es) hc rfl rfl rfl
    (find?_asking (f := httpRequest) (by simp [asking]))
    (fun _ => .cons rfl rfl rfl <| .cons rfl rfl rfl <| .cons rfl rfl rfl .nil) rfl rfl
  have h₁ := hm.tail (.outside _ (o := .inject touch) trivial)
  obtain ⟨q', hq', hattempts⟩ : ∃ q', (m.world.undergo (.inject touch)).queue.pop? = some (touch, q') ∧
      (m.world.undergo (.inject touch)).attempts = .empty := by
    rw [hw]
    cases hq
    exact ⟨_, rfl, rfl⟩
  let m' : Machine := { m with world := (m.world.undergo (.inject touch)).setQueue q' }
  have h₂ : Reachable P _ _ _ ⟨{ g with machine := m' }, .dispatch touch⟩ := h₁.tail (.loop (.pop rfl hq'))
  obtain ⟨herror, hworld, hsame⟩ :=
    Machine.handle_jump (f := h) rfl m' (.ofCall "llHTTPRequest" es) touch
  generalize hm'' : m'.handle (.ofCall "llHTTPRequest" es) h touch = result at herror hworld hsame
  obtain ⟨error, m''⟩ := result
  cases herror
  have herr : Engine.handle { g with machine := m' } h touch =
      (.error (.error (.undefinedLabel "nowhere")), { g with machine := m'' }) :=
    congrArg (fun result => (result.1, ({ g with machine := result.2 } : Engine))) hm''
  let c : Course := ⟨{ g with machine := m'' }.fail (.undefinedLabel "nowhere"), .idle⟩
  have h₃ : Reachable P _ _ _ c := h₂.tail (.loop (.halted (h := h) rfl herr))
  have hcalls : c.calls = [r] := by
    change m''.called.toList = _
    rw [hsame, hcalled, History.toList_push]
    exact congrArg (· ++ [r]) History.toList_empty
  have hcame : c.world.came = [] := by
    change m''.world.attempts.toList.map Attempt.answer = []
    rw [hworld, show m'.world.attempts = .empty from hattempts, History.toList_empty, List.map_nil]
  have hfatal : m''.world.reported .fatal = [] := by
    rw [hworld]
    refine (Reachable.orderly h₂).fatal fun hfailed => ?_
    cases hfailed
  refine ⟨c, r, Key.fresh 2, h₃, hcalls ▸ List.mem_singleton.2 rfl, rfl, Asks.key?_freshKey g.world call,
    fun c' hs => ?_⟩
  exact (ended_fail (g := { g with machine := m'' }) hfatal).lost h₃ rfl hcalls
    (Asks.answer?_freshKey (c := call) told) rfl rfl hcame hs

end Asking

end PrimScript
