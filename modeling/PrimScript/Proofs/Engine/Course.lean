import Mathlib.Logic.Relation
import PrimScript.Engine.Basic
import PrimScript.Proofs.Eval.Run
import PrimScript.Proofs.World.Acts

/-! Courses: an engine in the middle of things.  The main loop goes on by single steps, and what happens
outside comes between any two of them, or between any two calls of the library in a handler.  Where
nothing comes in between, the steps of the loop make up a turn of the engine. -/

namespace PrimScript

inductive Engine.Starts (g : Engine) : Except EngineError Unit × Engine → Prop
  | already : g.status ≠ .created → Starts g (.error .alreadyStarted, g)
  | halted {x : Halt} {m : Machine} :
    g.status = .created → g.machine.bindGlobals g.script = (.error x, m) →
      Starts g (.error (.halt x), { g with machine := m }.halt x)
  | refused {m : Machine} {x : EventError} :
    g.status = .created → g.machine.bindGlobals g.script = (.ok (), m) →
      m.world.queue.receive .entry = .error x →
      Starts g (.error (.event x), { g with machine := m }.mapWorld World.announceEntry)
  | running {m : Machine} :
    g.status = .created → g.machine.bindGlobals g.script = (.ok (), m) →
      Starts g (.ok (), { g with machine := m, status := .running }.mapWorld fun w =>
        { w.announceEntry with looping := true })

theorem Engine.starts_start (g : Engine) : g.Starts g.start := by
  unfold start
  split
  · next hs =>
    split
    · next hb => exact .halted hs hb
    · next m hb =>
      have hr := Starts.running hs hb
      rcases m.world.push_cases .entry .entry with ⟨q, -, hp⟩ | ⟨x, hx, hp⟩
      · simp only [Engine.mapWorld, World.announceEntry, hp] at hr ⊢
        exact hr
      · have hr := Starts.refused hs hb hx
        simp only [Engine.mapWorld, World.announceEntry, hp] at hr ⊢
        exact hr
  · next hs => exact .already hs

theorem Engine.start_eq {g : Engine} {m : Machine} {q : EventQueue} (hs : g.status = .created)
    (hb : g.machine.bindGlobals g.script = (.ok (), m)) (hq : m.world.queue.receive .entry = .ok q) :
    g.start = (.ok (), { g with machine := m, status := .running }.mapWorld fun w =>
      { w.accept .entry .entry q with looping := true }) := by
  simp only [start, hs, hb, World.push_of_receive hq, if_true]
  rfl

theorem Engine.closed_shutDown (g : Engine) : g.shutDown.world.queue.closed :=
  (World.Acts.quiet (P := fun _ => True) (R := False) (g.world.setQueue g.world.queue.close)).closed rfl

theorem Engine.status_shutDown (g : Engine) : g.shutDown.status = .failed ∨ g.shutDown.status = .stopped := by
  unfold shutDown
  dsimp only
  split
  · exact .inl rfl
  · exact .inr rfl

inductive Phase
  /-- Pop an event, if there is one. -/
  | idle : Phase
  | dispatch (e : Event) : Phase
  /-- Go over to a state, unless it is the current one. -/
  | change (target : String) : Phase
  | exit (h : Handler) (target : String) : Phase
  | clear (target : String) : Phase
  | cancelTimer (target : String) : Phase
  | cancelSweep (target : String) : Phase
  | dropListeners (target : String) : Phase
  | enter (target : String) : Phase
  | announce : Phase

structure Course where
  engine : Engine
  phase : Phase

namespace Course

def world (c : Course) : World := c.engine.world

def queue (c : Course) : EventQueue := c.world.queue

noncomputable def calls (c : Course) : List Called := c.engine.machine.called.toList

def mapWorld (c : Course) (f : World → World) : Course := { c with engine := c.engine.mapWorld f }

inductive Loop : Course → Course → Prop
  | pop {g : Engine} {e : Event} {q : EventQueue} :
    g.status = .running → g.world.queue.pop? = some (e, q) →
      Loop ⟨g, .idle⟩ ⟨g.mapWorld (·.setQueue q), .dispatch e⟩
  | unhandled {g : Engine} {e : Event} :
    g.states.handler? e.kind.name = none → Loop ⟨g, .dispatch e⟩ ⟨g, .idle⟩
  | handled {g g' : Engine} {e : Event} {h : Handler} :
    g.states.handler? e.kind.name = some h → g.handle h e = (.ok none, g') →
      Loop ⟨g, .dispatch e⟩ ⟨g', .idle⟩
  | asked {g g' : Engine} {e : Event} {h : Handler} {target : String} :
    g.states.handler? e.kind.name = some h → g.handle h e = (.ok (some target), g') →
      Loop ⟨g, .dispatch e⟩ ⟨g', .change target⟩
  | halted {g g' : Engine} {e : Event} {h : Handler} {x : Halt} :
    g.states.handler? e.kind.name = some h → g.handle h e = (.error x, g') →
      Loop ⟨g, .dispatch e⟩ ⟨g'.halt x, .idle⟩
  | unknown {g : Engine} {target : String} {e : EvalError} :
    g.states.check target = .error e → Loop ⟨g, .change target⟩ ⟨g.fail e, .idle⟩
  | same {g : Engine} {target : String} :
    g.states.check target = .ok false → Loop ⟨g, .change target⟩ ⟨g, .idle⟩
  | other {g : Engine} {target : String} :
    g.states.check target = .ok true → g.states.handler? EventKind.stateExit.name = none →
      Loop ⟨g, .change target⟩ ⟨g, .clear target⟩
  | exiting {g : Engine} {target : String} {h : Handler} :
    g.states.check target = .ok true → g.states.handler? EventKind.stateExit.name = some h →
      Loop ⟨g, .change target⟩ ⟨g, .exit h target⟩
  | exited {g g' : Engine} {h : Handler} {target : String} {r : Option String} :
    g.handle h (.ofKind .stateExit []) = (.ok r, g') →
      Loop ⟨g, .exit h target⟩ ⟨g', .clear target⟩
  | exitHalted {g g' : Engine} {h : Handler} {target : String} {x : Halt} :
    g.handle h (.ofKind .stateExit []) = (.error x, g') →
      Loop ⟨g, .exit h target⟩ ⟨g'.halt x, .idle⟩
  | clear (g : Engine) (target : String) :
    Loop ⟨g, .clear target⟩
      ⟨g.mapWorld fun w => w.setQueue w.queue.nextEpoch, .cancelTimer target⟩
  | cancelTimer (g : Engine) (target : String) :
    Loop ⟨g, .cancelTimer target⟩ ⟨g.mapWorld World.cancelTimer, .cancelSweep target⟩
  | cancelSweep (g : Engine) (target : String) :
    Loop ⟨g, .cancelSweep target⟩ ⟨g.mapWorld World.cancelSweep, .dropListeners target⟩
  | dropListeners (g : Engine) (target : String) :
    Loop ⟨g, .dropListeners target⟩ ⟨g.mapWorld World.dropListeners, .enter target⟩
  | enter (g : Engine) (target : String) :
    Loop ⟨g, .enter target⟩ ⟨g.enter target, .announce⟩
  | announce (g : Engine) : Loop ⟨g, .announce⟩ ⟨g.mapWorld World.announceEntry, .idle⟩

/-- A step of the main loop, or anything that comes in between.  The events that come from outside
satisfy `P`. -/
inductive Step (P : Event → Prop) : Course → Course → Prop
  | loop {c c' : Course} : Loop c c' → Step P c c'
  | start (g : Engine) : Step P ⟨g, .idle⟩ ⟨g.start.2, .idle⟩
  | stop (c : Course) : Step P c { c with engine := c.engine.shutDown }
  /-- The main loop finds that it is to stop. -/
  | ended (g : Engine) :
    g.status ≠ .created → g.world.queue.closed → Step P ⟨g, .idle⟩ ⟨g.mapWorld World.endLoop, .idle⟩
  | outside (c : Course) {o : Outside} : o.Holds P → Step P c (c.mapWorld (·.undergo o))
  /-- What is going to happen between the calls of the library becomes something else. -/
  | foresee (c : Course) {happenings : List (List Outside)} :
    (∀ os ∈ happenings, ∀ o ∈ os, o.Holds P) →
      Step P c (c.mapWorld fun w => { w with outside := happenings })

def Steps (P : Event → Prop) : Course → Course → Prop := Relation.ReflTransGen (Step P)

def initial (script : Script) (settings : Settings) (around : Surroundings) : Course :=
  ⟨.ofScript script (.ofSettings settings around), .idle⟩

def Reachable (P : Event → Prop) (script : Script) (settings : Settings)
    (around : Surroundings) (c : Course) : Prop :=
  Steps P (initial script settings around) c

section Turn

def Loops : Course → Course → Prop := Relation.ReflTransGen Loop

theorem Loops.head {c c' c'' : Course} (h : Loop c c') (h' : Loops c' c'') : Loops c c'' :=
  Relation.ReflTransGen.head h h'

theorem Loops.one {c c' : Course} (h : Loop c c') : Loops c c' := Relation.ReflTransGen.single h

def settled : Except Halt Unit × Engine → Engine
  | (.ok (), g) => g
  | (.error x, g) => g.halt x

theorem loops_enterState (g : Engine) (target : String) :
    Loops ⟨g, .clear target⟩ ⟨g.enterState target, .idle⟩ :=
  .head (.clear g target) <| .head (.cancelTimer _ target) <| .head (.cancelSweep _ target) <|
    .head (.dropListeners _ target) <| .head (.enter _ target) <| .one (.announce _)

theorem loops_changeState (g : Engine) (target : String) :
    Loops ⟨g, .change target⟩ ⟨settled (g.changeState target), .idle⟩ := by
  unfold Engine.changeState
  split
  · next e hc => exact .one (.unknown hc)
  · next hc => exact .one (.same hc)
  · next hc =>
    split
    · next hh => exact .head (.other hc hh) (loops_enterState g target)
    · next h hh =>
      apply Loops.head (.exiting hc hh)
      split
      · next x g' hg => exact .one (.exitHalted hg)
      · next r g' hg => exact .head (.exited hg) (loops_enterState g' target)

theorem loops_dispatch (g : Engine) (e : Event) :
    Loops ⟨g, .dispatch e⟩ ⟨settled (g.dispatch e), .idle⟩ := by
  unfold Engine.dispatch
  split
  · next hh => exact .one (.unhandled hh)
  · next h hh =>
    split
    · next x g' hg => exact .one (.halted hh hg)
    · next g' hg => exact .one (.handled hh hg)
    · next target g' hg => exact .head (.asked hh hg) (loops_changeState g' target)

theorem loops_of_turn? {g g' : Engine} (h : g.turn? = some g') :
    Loops ⟨g, .idle⟩ ⟨g', .idle⟩ := by
  unfold Engine.turn? at h
  split at h
  · next hs =>
    split at h
    · cases h
    · next e q hq =>
      have hd : g' = settled ((g.mapWorld (·.setQueue q)).dispatch e) := by
        split at h
        · next hd =>
          rw [hd]
          exact (Option.some.inj h).symm
        · next hd =>
          rw [hd]
          exact (Option.some.inj h).symm
      rw [hd]
      exact .head (.pop hs hq) (loops_dispatch _ e)
  · cases h

theorem exists_loop_iff (g : Engine) : (∃ c, Loop ⟨g, .idle⟩ c) ↔ g.turn?.isSome := by
  constructor
  · rintro ⟨c, h⟩
    cases h with
    | pop hs hq =>
      simp only [Engine.turn?, hs, hq, if_true]
      split <;> rfl
  · intro h
    unfold Engine.turn? at h
    split at h
    · next hs =>
      split at h
      · cases h
      · next e q hq => exact ⟨_, .pop hs hq⟩
    · cases h

end Turn

section Outside

variable {P : Event → Prop}

theorem Steps.of_loops {c c' : Course} (h : Loops c c') : Steps P c c' :=
  Relation.ReflTransGen.mono (fun _ _ => Step.loop) _ _ h

theorem Steps.of_turn? {g g' : Engine} (h : g.turn? = some g') :
    Steps P ⟨g, .idle⟩ ⟨g', .idle⟩ := .of_loops (loops_of_turn? h)

theorem Steps.trans {c c' c'' : Course} (h : Steps P c c') (h' : Steps P c' c'') :
    Steps P c c'' := Relation.ReflTransGen.trans h h'

theorem Steps.one {c c' : Course} (h : Step P c c') : Steps P c c' :=
  Relation.ReflTransGen.single h

theorem steps_stop (g : Engine) : Steps P ⟨g, .idle⟩ ⟨g.stop, .idle⟩ := by
  have hs : g.shutDown.status ≠ .created := by rcases g.status_shutDown with h | h <;> rw [h] <;> nofun
  exact (Steps.one (.stop ⟨g, .idle⟩)).tail (.ended g.shutDown hs g.closed_shutDown)

theorem snd_inject (g : Engine) (e : Event) :
    (g.inject e).2 = g.mapWorld fun w => (w.enqueue .outside e).2 := by
  have he : g.mapWorld (fun w => (w.enqueue .outside e).2) =
      { g with machine := { g.machine with world := (g.world.enqueue .outside e).2 } } := rfl
  rw [he]
  unfold Engine.inject World.enqueue
  rcases g.world.push_cases .outside e with ⟨q, -, hp⟩ | ⟨x, -, hp⟩
  · rw [hp]
    rfl
  · rw [hp]
    cases x <;> rfl

theorem steps_inject (g : Engine) (phase : Phase) {e : Event} (hl : e.high = false)
    (ha : e.asked = none) (he : P e) : Steps P ⟨g, phase⟩ ⟨(g.inject e).2, phase⟩ := by
  have hh : { e with high := false, asked := none } = e := by rw [← hl, ← ha]
  have ho : (Outside.inject e).Holds P := by
    change P { e with high := false, asked := none }
    rwa [hh]
  have hs := Step.outside ⟨g, phase⟩ ho
  simp only [World.undergo, hh] at hs
  rw [snd_inject]
  exact .one hs

theorem steps_injectAll (g : Engine) (phase : Phase) {es : List Event}
    (hl : ∀ e ∈ es, e.high = false ∧ e.asked = none) (he : ∀ e ∈ es, P e) :
    Steps P ⟨g, phase⟩ ⟨(g.injectAll es).2, phase⟩ := by
  induction es generalizing g with
  | nil => exact Relation.ReflTransGen.refl
  | cons e es ih =>
    rw [List.forall_mem_cons] at hl he
    have hs := steps_inject g phase hl.1.1 hl.1.2 he.1
    unfold Engine.injectAll
    split
    · next h =>
      rw [h] at hs
      exact hs
    · next h =>
      rw [h] at hs
      exact hs.trans (ih _ hl.2 he.2)

def heard (channel : Int32) (name key message : String) : Event :=
  .ofKind .listen [.integer channel, .string name, .ofKey key, .string message]

theorem steps_hear (g : Engine) (phase : Phase) (channel : Int32) (name key message : String)
    (hP : P (heard channel name key message)) :
    Steps P ⟨g, phase⟩ ⟨(g.hear channel name key message).2, phase⟩ := by
  have he : ∀ e ∈ (g.world.listeners.matching channel name key message).map fun _ =>
      heard channel name key message, e = heard channel name key message := by
    intro e he
    obtain ⟨-, -, rfl⟩ := List.mem_map.1 he
    rfl
  have hs := steps_injectAll (P := P) g phase (fun e h => by rw [he e h]; exact ⟨rfl, rfl⟩)
    fun e h => by rw [he e h]; exact hP
  unfold heard at hs
  unfold Engine.hear
  dsimp only
  split
  · next h =>
    rw [h] at hs
    exact hs
  · next h =>
    rw [h] at hs
    exact hs

end Outside

section Beginning

open Eval

theorem exists_reachable_entry (P : Event → Prop) (script : Script) (hg : script.globals = [])
    (settings : Settings) (around : Surroundings) :
    ∃ q, (initial script settings around).engine.start.2.world.queue.pop? = some (.entry, q) ∧
      Reachable P script settings around
        ⟨(initial script settings around).engine.start.2.mapWorld (·.setQueue q), .dispatch .entry⟩ := by
  obtain ⟨globals, functions, states⟩ := script
  cases hg
  let g := (initial ⟨[], functions, states⟩ settings around).engine
  obtain ⟨w, hfresh, ha⟩ := World.exists_fresh_alike settings around
  have hempty : g.world.queue = .empty settings.queueCapacity := ha.queue.trans hfresh.queue
  obtain ⟨q, hq⟩ : ∃ q, g.world.queue.receive .entry = .ok q ∧ ∃ q', q.pop? = some (.entry, q') := by
    rw [hempty]
    exact ⟨_, rfl, _, rfl⟩
  obtain ⟨hq, q', hpop⟩ := hq
  have hstart := g.start_eq rfl rfl hq
  have hq' : g.start.2.world.queue.pop? = some (.entry, q') := by
    rw [hstart]
    exact hpop
  have hrunning : g.start.2.status = .running := by rw [hstart]; rfl
  exact ⟨q', hq', (Steps.one (.start g)).tail (.loop (.pop hrunning hq'))⟩

theorem Reachable.call {P : Event → Prop} {script : Script} {settings : Settings}
    {around : Surroundings} {g : Engine} {e : Event}
    (hc : Reachable P script settings around ⟨g, .dispatch e⟩) {h : Handler} {name : String}
    {es : List Expr} {f : LibraryFunction} {args : List Value} {v : Value} {w : World}
    (hh : g.states.handler? e.kind.name = some h) (hb : h.body = [.expr (.call name es)])
    (hn : g.script.functions.find? name = none) (hf : Library.find? name = some f)
    (hargs : ∀ s, Expr.Given s f.params es args) (hm : g.world.meanwhile = g.world)
    (hr : f.run ⟨f.name, args, e.detected⟩ g.world = (.value v, w)) :
    ∃ m, Reachable P script settings around ⟨{ g with machine := m }, .idle⟩ ∧ m.world = w ∧
      m.called = g.machine.called.push (callOf f args e.detected g.world) := by
  obtain ⟨hnone, hw, hcalled⟩ := Machine.handle_library hb hn hf hargs e hm hr
  exact ⟨_, hc.tail (.loop (.handled hh (Prod.ext hnone rfl))), hw, hcalled⟩

end Beginning

end Course

end PrimScript
