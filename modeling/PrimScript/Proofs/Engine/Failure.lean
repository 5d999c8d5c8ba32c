import PrimScript.Proofs.Engine.Frames
import PrimScript.Proofs.Engine.Target
import PrimScript.Proofs.Engine.Told

/-! A script that fails has come to its end.  Whatever is still under way, and whatever is tried after that,
nothing of the script runs any more and nothing gets to its queue. -/

namespace PrimScript

namespace World

variable {P : Event → Prop} {R : Prop} {w w' : World} {es : List Event}

/-- The queue is closed, nothing is pending, and it has accepted just those events. -/
structure Shut (es : List Event) (w : World) : Prop where
  closed : w.queue.closed
  empty : w.queue.toList = []
  accepted : w.queue.accepted = es

theorem Act.shut (h : Act P R w w') (hw : w.Shut es) : w'.Shut es := by
  obtain ⟨hclosed, hempty, haccepted⟩ := hw
  cases h with
  | aside _ queue => exact ⟨queue ▸ hclosed, queue ▸ hempty, queue ▸ haccepted⟩
  | push _ _ accepted => simp [EventQueue.receive, hclosed] at accepted
  | refuse => exact ⟨hclosed, hempty, haccepted⟩
  | withdraw =>
    refine ⟨hclosed, ?_, (EventQueue.accepted_erase _ _).trans haccepted⟩
    rw [EventQueue.toList_erase, hempty]
    rfl
  | close => exact ⟨rfl, rfl, (EventQueue.accepted_close _).trans haccepted⟩

theorem Acts.shut (h : Acts P R w w') (hw : w.Shut es) : w'.Shut es := by
  induction h with
  | refl => exact hw
  | tail _ h ih => exact h.shut ih

theorem Shut.fst_push (h : w.Shut es) (e : Event) : (w.queue.push e).1 = .error .closed := by
  rw [EventQueue.push, EventQueue.receive, if_pos h.closed]
  rfl

theorem Shut.fst_pushIn (h : w.Shut es) (epoch : Nat) (e : Event) :
    ∃ x, (w.queue.pushIn epoch e).1 = .error x := by
  rcases w.queue.pushIn_cases epoch e with ⟨-, hp⟩ | ⟨-, hp⟩
  · exact ⟨_, by rw [hp, h.fst_push e]⟩
  · exact ⟨_, by rw [hp]⟩

end World

namespace Course

variable {P : Event → Prop} {script : Script} {settings : Settings} {around : Surroundings}
  {c c' : Course}

inductive Goes : Course → Course → Prop
  | loop {c c' : Course} : Loop c c' → Goes c c'
  | start {g : Engine} : g.status = .created → Goes ⟨g, .idle⟩ ⟨g.start.2, .idle⟩

theorem Goes.step (h : Goes c c') : Step P c c' := by
  cases h with
  | loop h => exact .loop h
  | start => exact .start _

structure Halted (c : Course) : Prop where
  phase : c.phase = .idle
  status : c.engine.status = .failed

namespace Halted

theorem not_goes (h : c.Halted) : ¬ Goes c c' := by
  obtain ⟨hp, hs⟩ := h
  intro hg
  cases hg with
  | loop hl =>
    cases hl with
    | pop hr => cases hs.symm.trans hr
    | _ => cases hp
  | start hc => cases hs.symm.trans hc

theorem start_eq (h : c.Halted) : c.engine.start = (.error .alreadyStarted, c.engine) := by
  simp [Engine.start, h.status]

theorem step (h : c.Halted) (hP : ∀ e : Event, e.Own → P e) (hw : c.world.Holds P)
    (hs : Step P c c') :
    c'.Halted ∧ c'.engine.states = c.engine.states ∧
      c'.engine.machine = { c.engine.machine with world := c'.world } ∧
      World.Told [] c.world c'.world ∧ World.Acts P False c.world c'.world := by
  have hf := h.status
  cases hs with
  | loop hl => exact (h.not_goes (.loop hl)).elim
  | start g =>
    rw [start_of_ne (by rw [hf]; nofun)]
    exact ⟨h, rfl, rfl, .refl _, .refl _⟩
  | stop c =>
    have hs : c.engine.shutDown.status = .failed := by simp [Engine.shutDown, hf]
    exact ⟨⟨h.phase, hs⟩, rfl, rfl, .shutDown _, Engine.acts_shutDown _⟩
  | ended g => exact ⟨⟨rfl, hf⟩, rfl, rfl, .endLoop _, .endLoop _⟩
  | outside c ho =>
    exact ⟨⟨h.phase, hf⟩, rfl, rfl, .undergo _ _, .undergo (Library.periodic_of_own hP) ho hw⟩
  | foresee c ho => exact ⟨⟨h.phase, hf⟩, rfl, rfl, .same rfl rfl rfl, .foresee _ ho⟩

end Halted

/-- A failed engine is not at work, and nothing is reported as fatal before. -/
structure Orderly (c : Course) : Prop where
  phase : c.engine.status = .failed → c.phase = .idle
  fatal : c.engine.status ≠ .failed → c.world.reported .fatal = []

theorem Step.orderly (h : Step (fun _ => True) c c') (hw : c.world.Holds fun _ => True)
    (hc : c.Orderly) : c'.Orderly := by
  have halted (hs : c.engine.status = .failed) : c'.Halted :=
    (Halted.step ⟨hc.phase hs, hs⟩ (fun _ _ => trivial) hw h).1
  cases h.told with
  | on ht hs =>
    refine ⟨fun hf => (halted (hs hf)).phase, fun hf => ?_⟩
    have hr : c'.world.reported .fatal = c.world.reported .fatal := ht.fatal
    rw [hr]
    exact hc.fatal fun hf' => hf (halted hf').status
  | ended e ht => exact ⟨fun _ => rfl, fun hf => absurd rfl hf⟩

theorem Reachable.sound_true (h : Reachable (fun _ => True) script settings around c) :
    Sound (fun _ => True) settings c := Reachable.sound (fun _ _ => trivial) h

theorem Reachable.orderly (h : Reachable (fun _ => True) script settings around c) : c.Orderly := by
  induction h with
  | refl =>
    obtain ⟨w, hw, ha⟩ := World.exists_fresh_alike settings around
    refine ⟨nofun, fun _ => ?_⟩
    have hf : (World.ofSettings settings around).reported .fatal = w.reported .fatal :=
      ha.reported .fatal rfl
    refine hf.trans ?_
    simp [World.reported, hw.diagnostics]
  | tail hs h ih => exact h.orderly (Reachable.sound_true hs).world.holds ih

theorem Reachable.frames_nil (h : Reachable (fun _ => True) script settings around c) :
    c.engine.machine.stack.frames = [] :=
  (h.carried (fun _ _ => trivial) (Machine.carried_frameless _ settings)
    ⟨rfl, by simp [Machine.ofWorld]⟩).frames

section Fails

variable {e : EvalError}

theorem Fails.exists_goes (h : c.Fails (.error e)) : ∃ c', Goes c c' := by
  cases h with
  | start hs => exact ⟨_, .start hs⟩
  | handler hh hg => exact ⟨_, .loop (.halted hh hg)⟩
  | unknown hc => exact ⟨_, .loop (.unknown hc)⟩
  | exit hg => exact ⟨_, .loop (.exitHalted hg)⟩

theorem Fails.status_ne (h : c.Fails (.error e)) (hc : c.Orderly) : c.engine.status ≠ .failed := by
  intro hs
  have hp := hc.phase hs
  cases h with
  | start hcr => cases hs.symm.trans hcr
  | handler => cases hp
  | unknown => cases hp
  | exit => cases hp

theorem Fails.eq_fail (h : c.Fails (.error e)) (hg : Goes c c') :
    ∃ g : Engine, c' = ⟨g.fail e, .idle⟩ ∧ g.states = c.engine.states ∧
      c.engine.machine.Told g.machine := by
  cases h with
  | @start g m x hs hb =>
    cases hg with
    | loop hl =>
      cases hl with
      | pop hr => cases hs.symm.trans hr
    | start =>
      have ht := Machine.told_bindGlobals g.script g.machine
      rw [hb] at ht
      refine ⟨{ g with machine := m }, ?_, rfl, ht⟩
      rw [Engine.start, if_pos hs, hb]
      rfl
  | @handler g g' ev k x hh hx =>
    cases hg with
    | loop hl =>
      cases hl with
      | unhandled hn => cases hn.symm.trans hh
      | handled hh' hx' =>
        cases hh'.symm.trans hh
        cases hx'.symm.trans hx
      | asked hh' hx' =>
        cases hh'.symm.trans hh
        cases hx'.symm.trans hx
      | halted hh' hx' =>
        cases hh'.symm.trans hh
        cases hx'.symm.trans hx
        exact ⟨_, rfl, (states_of_handle hx).1, (told_handle hx).1⟩
  | @unknown g target x hx =>
    cases hg with
    | loop hl =>
      cases hl with
      | unknown hx' =>
        cases hx'.symm.trans hx
        exact ⟨_, rfl, rfl, .refl _⟩
      | same hx' => cases hx'.symm.trans hx
      | other hx' => cases hx'.symm.trans hx
      | exiting hx' => cases hx'.symm.trans hx
  | @exit g g' k target x hx =>
    cases hg with
    | loop hl =>
      cases hl with
      | exited hx' => cases hx'.symm.trans hx
      | exitHalted hx' =>
        cases hx'.symm.trans hx
        exact ⟨_, rfl, (states_of_handle hx).1, (told_handle hx).1⟩

end Fails

/-- The second course is what has become of the first one, which an error has just ended: but for the world
nothing has changed, the queue has accepted nothing since, and the error is all that is reported as
fatal. -/
structure Ended (e : EvalError) (c c' : Course) : Prop extends c'.Halted where
  fatal : c'.world.reported .fatal = [⟨.fatal, e.message⟩]
  shut : c'.world.Shut c.queue.accepted
  states : c'.engine.states = c.engine.states
  machine : c'.engine.machine = { c.engine.machine with world := c'.world }

theorem Ended.step {e : EvalError} {c'' : Course} (h : Ended e c c')
    (hw : c'.world.Holds fun _ => True) (hs : Step (fun _ => True) c' c'') : Ended e c c'' := by
  obtain ⟨hhalted, hstates, hmachine, htold, hacts⟩ := h.toHalted.step (fun _ _ => trivial) hw hs
  exact ⟨hhalted, htold.fatal.trans h.fatal, hacts.shut h.shut, hstates.trans h.states,
    hmachine.trans (by rw [h.machine])⟩

theorem Ended.steps {e : EvalError} {c'' : Course} (h : Ended e c c')
    (hc : Reachable (fun _ => True) script settings around c')
    (hs : Steps (fun _ => True) c' c'') : Ended e c c'' := by
  induction hs with
  | refl => exact h
  | tail hs h ih =>
    exact ih.step (Reachable.sound_true (Relation.ReflTransGen.trans hc hs)).world.holds h

theorem ended_fail {g : Engine} {e : EvalError} (h : g.world.reported .fatal = []) :
    Ended e ⟨g.fail e, .idle⟩ ⟨g.fail e, .idle⟩ where
  phase := rfl
  status := rfl
  fatal := by
    have hr : (g.fail e).world.reported .fatal = (g.world.report .fatal e.message).reported .fatal := rfl
    refine hr.trans ?_
    rw [World.reported_report, h]
    rfl
  shut := ⟨rfl, rfl, rfl⟩
  states := rfl
  machine := rfl

/-- Where initial values, a handler or a change of state come to an error, the next that the engine does is
to end the script: it reports the error, as the only fatal one ever, and from then on it stays failed, in the
state it was in and with no frames.  Whatever happens after that, and however often it is stopped or started
again, nothing of the script is run, and nothing is pending or accepted. -/
theorem failure_contained {e : EvalError}
    (hc : Reachable (fun _ => True) script settings around c) (hf : c.Fails (.error e)) :
    c.engine.machine.stack.depth = 0 ∧ c.world.reported .fatal = [] ∧ (∃ c', Goes c c') ∧
    ∀ c', Goes c c' → c'.engine.states.current = c.engine.states.current ∧
      ∀ c'', Steps (fun _ => True) c' c'' →
        Ended e c' c'' ∧ c''.engine.machine.stack.depth = 0 ∧ (∀ c₃, ¬ Goes c'' c₃) ∧
        c''.engine.start = (.error .alreadyStarted, c''.engine) ∧
        ∀ event, (c''.queue.push event).1 = .error .closed ∧
          (∀ epoch, ∃ x, (c''.queue.pushIn epoch event).1 = .error x) ∧
          (c''.engine.inject event).1 = .error .notRunning := by
  have depth {c : Course} (hc : Reachable (fun _ => True) script settings around c) :
      c.engine.machine.stack.depth = 0 := by rw [CallStack.depth, hc.frames_nil, List.length_nil]
  have hfatal := hc.orderly.fatal (hf.status_ne hc.orderly)
  refine ⟨depth hc, hfatal, hf.exists_goes, fun c' hg => ?_⟩
  have hc' : Reachable (fun _ => True) script settings around c' := hc.tail hg.step
  obtain ⟨g, rfl, hstates, htold⟩ := hf.eq_fail hg
  refine ⟨congrArg StateMachine.current hstates, fun c'' hs => ?_⟩
  have hended : Ended e ⟨g.fail e, .idle⟩ c'' := (ended_fail (htold.fatal.trans hfatal)).steps hc' hs
  have hpush := hended.shut.fst_push
  refine ⟨hended, depth (Relation.ReflTransGen.trans hc' hs), fun _ => hended.not_goes,
    hended.start_eq, fun event => ⟨hpush event, (hended.shut.fst_pushIn · event), ?_⟩⟩
  have hq : (c''.engine.world.push .outside event).1 = .error .closed := by
    rw [World.fst_push]
    exact hpush event
  unfold Engine.inject
  split
  · next hp => rw [hp] at hq; cases hq
  · next hp => rw [hp] at hq; cases hq
  · rfl
  · next hx hp =>
    rw [hp] at hq
    cases hq
    exact absurd rfl hx

def stray : Script where
  globals := []
  functions := []
  states := [("default", [("state_entry", ⟨[], [.jump "nowhere"]⟩)])]

theorem failure_contained_stray :
    ∃ c, Reachable (fun _ => True) stray .default (.plain []) c ∧
      c.Fails (.error (.undefinedLabel "nowhere")) ∧ c.world.reported .fatal = [] ∧
      ∃ c', Goes c c' ∧ Ended (.undefinedLabel "nowhere") c' c' := by
  let g := (initial stray .default (.plain [])).engine.start.2
  obtain ⟨q, hq⟩ : ∃ q, g.world.queue.pop? = some (.entry, q) := ⟨_, rfl⟩
  have h₁ : Reachable (fun _ => True) stray .default (.plain []) ⟨g, .idle⟩ := .one (.start _)
  have h₂ := h₁.tail (.loop (.pop rfl hq))
  have hf : Fails ⟨g.mapWorld (·.setQueue q), .dispatch .entry⟩ (.error (.undefinedLabel "nowhere")) :=
    .handler (h := ⟨[], [.jump "nowhere"]⟩) rfl
      (Prod.ext (Machine.handle_jump rfl _ _ _).1 rfl)
  obtain ⟨-, hfatal, ⟨c', hg⟩, hall⟩ := failure_contained h₂ hf
  exact ⟨_, h₂, hf, hfatal, c', hg, ((hall c' hg).2 c' .refl).1⟩

end Course

end PrimScript
