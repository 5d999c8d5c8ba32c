import PrimScript.Proofs.Engine.Transition
import PrimScript.Proofs.Eval.Run
import PrimScript.Proofs.Syntax.Validity

/-! The states that evaluation goes over to and the errors it ends with.  A script that has all states its
bodies name goes over to no other ones, and no path to a label leads astray in it.  So along a course of a valid
script every state that is entered is one of the script, and the running of the script ends with foreseen errors
only. -/

namespace PrimScript

section

open Eval Contract

/-- The errors that the running of a script may end with. -/
def EvalError.Foreseen : EvalError → Prop
  | .undefinedLabel _ | .depthExceeded _ => True
  | _ => False

def Halt.Foreseen : Halt → Prop
  | .error e => e.Foreseen
  | .overlong => True

/-- The contract to request states of the script only, and to be halted for foreseen reasons only. -/
def Eval.Contract.within (s : Script) : Contract where
  machine m := ∀ state ∈ m.requested, s.states.contains state
  value _ := True
  halt x _ := x.Foreseen
  flow f m := (∀ state ∈ m.requested, s.states.contains state) ∧
    ∀ target, f = .state target → s.states.contains target
  target state := s.states.contains state
  lost := False

theorem Eval.calls_within (s : Script) : (Contract.within s).ForCalls where
  closed := .all
  warn _ _ hm := hm
  slot _ _ := trivial
  declare _ _ _ hm _ := hm
  assign hm _ _ := ⟨trivial, hm⟩
  library _ _ _ := Meets.callLibrary (fun _ _ _ _ hm => ⟨hm, trivial⟩) (fun _ _ _ _ => trivial) _ _ _
  capped hm := hm
  plain hf hm := ⟨hm, by rintro target rfl; exact hf.elim⟩
  result _ hm := ⟨hm, nofun⟩
  stated ht hm := ⟨hm, by rintro _ ⟨⟩; exact ht⟩
  within _ hm := hm.1
  returned _ _ _ := trivial
  taken hm hr := ⟨nofun, by rintro _ ⟨⟩; exact hm.1 _ hr⟩
  undefined _ _ := trivial
  lost hl := hl.elim
  request hm := by rintro _ ⟨⟩; exact hm.2 _ rfl
  enter _ _ _ _ hm _ := hm
  leave hm := hm
  halted hx := hx
  tooDeep _ _ := trivial

namespace Script.Closed

variable {script : Script} (hc : script.Closed) {m m' : Machine}
include hc

theorem handle {state event : String} {h : Handler} (hh : script.handler? state event = some h)
    (e : Event) : Meets (Contract.within script).machine
      ((Contract.within script).Taken (Contract.within script).machine) (fun x _ => x.Foreseen)
      (h.run script e) :=
  (calls_within script).handle (fun _ _ => hc.function) h (hc.handler hh) fun _ _ => trivial

theorem target_of_handle {state event target : String} {h : Handler} {e : Event}
    (hh : script.handler? state event = some h)
    (hr : m.handle script h e = (.ok (some target), m')) : script.states.contains target := by
  have ht := (hc.handle hh e).ok (m := { m with requested := none }) nofun hr
  exact ht.2 target rfl

theorem foreseen_of_handle {state event : String} {h : Handler} {e : Event} {x : Halt}
    (hh : script.handler? state event = some h) (hr : m.handle script h e = (.error x, m')) :
    x.Foreseen :=
  (hc.handle hh e).error (m := { m with requested := none }) nofun hr

theorem foreseen_of_bindGlobals {x : Halt} (hr : m.bindGlobals script = (.error x, m')) :
    x.Foreseen :=
  ((calls_within script).bindGlobals (fun _ _ => hc.function) script.globals).error
    (m := { m with requested := none }) nofun hr

end Script.Closed

end

def Phase.target? : Phase → Option String
  | .idle | .dispatch _ | .announce => none
  | .change target | .exit _ target | .clear target | .cancelTimer target | .cancelSweep target
  | .dropListeners target | .enter target => some target

namespace Course

/-- The next step of the course ends the run of the script: initial values cannot be given, a handler does
not come to its end, or there is no such state. -/
inductive Fails : Course → Halt → Prop
  | start {g : Engine} {m : Machine} {x : Halt} :
    g.status = .created → g.machine.bindGlobals g.script = (.error x, m) → Fails ⟨g, .idle⟩ x
  | handler {g g' : Engine} {e : Event} {h : Handler} {x : Halt} :
    g.states.handler? e.kind.name = some h → g.handle h e = (.error x, g') →
      Fails ⟨g, .dispatch e⟩ x
  | unknown {g : Engine} {target : String} {e : EvalError} :
    g.states.check target = .error e → Fails ⟨g, .change target⟩ (.error e)
  | exit {g g' : Engine} {h : Handler} {target : String} {x : Halt} :
    g.handle h (.ofKind .stateExit []) = (.error x, g') → Fails ⟨g, .exit h target⟩ x

theorem machine_of_handle {g g' : Engine} {h : Handler} {e : Event}
    {r : Except Halt (Option String)} (hg : g.handle h e = (r, g')) :
    g.machine.handle g.script h e = (r, g'.machine) := by
  cases hg
  rfl

/-- In no other way does an engine fail. -/
theorem Step.fails {P : Event → Prop} {c c' : Course} (h : Step P c c')
    (hc : c.engine.status ≠ .failed) (hc' : c'.engine.status = .failed) :
    ∃ e, c.Fails (.error e) := by
  cases h with
  | loop h =>
    cases h with
    -- A handler that comes to its end leaves the status as it was.
    | handled _ hg | asked _ hg | exited hg => exact (hc ((states_of_handle hg).2 ▸ hc')).elim
    | @halted g g' e h x hh hg =>
      cases x with
      | error e => exact ⟨e, .handler hh hg⟩
      | overlong => cases hc'
    | @exitHalted g g' h target x hg =>
      cases x with
      | error e => exact ⟨e, .exit hg⟩
      | overlong => cases hc'
    | @unknown g target e he => exact ⟨e, .unknown he⟩
    | _ => exact (hc hc').elim
  | start g =>
    have hs := g.starts_start
    generalize g.start = r at hs hc'
    cases hs with
    | already => exact (hc hc').elim
    | @halted x _ hs hx =>
      cases x with
      | error e => exact ⟨e, .start hs hx⟩
      | overlong => cases hc'
    | refused => exact (hc hc').elim
    | running => cases hc'
  | stop c => simp [Engine.shutDown, hc] at hc'
  | ended => exact (hc hc').elim
  | outside c => exact (hc hc').elim
  | foresee c => exact (hc hc').elim

structure Contained (script : Script) (c : Course) : Prop where
  script_eq : c.engine.states.script = script
  current : script.states.contains c.engine.states.current
  target : ∀ target ∈ c.phase.target?, script.states.contains target
  exit : ∀ h target, c.phase = .exit h target → ∃ state event, script.handler? state event = some h

namespace Contained

variable {script : Script} {c c' : Course}

theorem of_idle {g : Engine} (h : g.states.script = script)
    (hc : script.states.contains g.states.current) : Contained script ⟨g, .idle⟩ :=
  ⟨h, hc, nofun, nofun⟩

theorem of_states (h : Contained script c) (hs : c'.engine.states = c.engine.states)
    (ht : ∀ target ∈ c'.phase.target?, target ∈ c.phase.target?)
    (he : ∀ h target, c'.phase = .exit h target →
      ∃ state event, script.handler? state event = some h) : Contained script c' where
  script_eq := hs ▸ h.script_eq
  current := hs ▸ h.current
  target target hm := h.target target (ht target hm)
  exit := he

variable (hscript : script.Closed)
include hscript

theorem loop (h : Contained script c) (hl : Loop c c') : Contained script c' := by
  obtain ⟨hs, hcur, htar, hex⟩ := id h
  cases hl with
  | pop => exact h.of_states rfl nofun nofun
  | unhandled => exact h.of_states rfl nofun nofun
  | handled _ hg => exact h.of_states (states_of_handle hg).1 nofun nofun
  | @asked g g' e k target hh hg =>
    obtain ⟨hst, -⟩ := states_of_handle hg
    refine ⟨hst ▸ hs, hst ▸ hcur, ?_, nofun⟩
    rintro _ ⟨⟩
    subst hs
    exact hscript.target_of_handle hh (machine_of_handle hg)
  | halted _ hg =>
    exact h.of_states ((states_halt _ _).trans (states_of_handle hg).1) nofun nofun
  | unknown => exact h.of_states rfl nofun nofun
  | same => exact h.of_states rfl nofun nofun
  | other => exact h.of_states rfl (fun _ => id) nofun
  | @exiting g target k hch hh =>
    refine h.of_states rfl (fun _ => id) ?_
    rintro _ _ ⟨⟩
    subst hs
    exact ⟨_, _, hh⟩
  | exited hg => exact h.of_states (states_of_handle hg).1 (fun _ => id) nofun
  | exitHalted hg =>
    exact h.of_states ((states_halt _ _).trans (states_of_handle hg).1) nofun nofun
  | clear => exact h.of_states rfl (fun _ => id) nofun
  | cancelTimer => exact h.of_states rfl (fun _ => id) nofun
  | cancelSweep => exact h.of_states rfl (fun _ => id) nofun
  | dropListeners => exact h.of_states rfl (fun _ => id) nofun
  | enter g target => exact ⟨hs, htar target rfl, nofun, nofun⟩
  | announce => exact h.of_states rfl nofun nofun

theorem step {P : Event → Prop} (h : Contained script c) (hs : Step P c c') :
    Contained script c' := by
  cases hs with
  | loop hl => exact h.loop hscript hl
  | start g => exact h.of_states (states_start g) nofun nofun
  | stop c => exact h.of_states rfl (fun _ => id) h.exit
  | ended g => exact h.of_states rfl (fun _ => id) h.exit
  | outside c => exact h.of_states rfl (fun _ => id) h.exit
  | foresee c => exact h.of_states rfl (fun _ => id) h.exit

theorem loops (h : Contained script c) (hl : Loops c c') : Contained script c' := by
  induction hl with
  | refl => exact h
  | tail _ hl ih => exact ih.loop hscript hl

theorem foreseen (h : Contained script c) {x : Halt} (hf : c.Fails x) : x.Foreseen := by
  obtain ⟨hs, hcur, htar, hex⟩ := h
  subst hs
  cases hf with
  | start _ hr => exact hscript.foreseen_of_bindGlobals hr
  | @handler g g' e k x hh hg => exact hscript.foreseen_of_handle hh (machine_of_handle hg)
  | @unknown g target e he =>
    have ht : g.states.script.states.contains target := htar target rfl
    simp [StateMachine.check, ht] at he
  | @exit g g' k target x hg =>
    obtain ⟨state, event, hh⟩ := hex k target rfl
    exact hscript.foreseen_of_handle hh (machine_of_handle hg)

end Contained

theorem Reachable.contained {P : Event → Prop} {script : Script} {settings : Settings}
    {around : Surroundings} {c : Course} (hscript : script.Closed)
    (h : Reachable P script settings around c) : Contained script c := by
  induction h with
  | refl => exact .of_idle rfl hscript.default
  | tail _ hs ih => exact ih.step hscript hs

theorem fails_of_dispatch {g g' : Engine} {e : Event} {x : Halt}
    (h : g.dispatch e = (.error x, g')) : ∃ c, Loops ⟨g, .dispatch e⟩ c ∧ c.Fails x := by
  unfold Engine.dispatch at h
  split at h
  · cases h
  · next k hh =>
    split at h
    · next x g' hg =>
      cases h
      exact ⟨_, .refl, .handler hh hg⟩
    · cases h
    · next target g₁ hg =>
      have hl : Loops ⟨g, .dispatch e⟩ ⟨g₁, .change target⟩ := .one (.asked hh hg)
      unfold Engine.changeState at h
      split at h
      · next e hc =>
        cases h
        exact ⟨_, hl, .unknown hc⟩
      · cases h
      · next hc =>
        split at h
        · cases h
        · next k' hk =>
          split at h
          · next x g₂ hg₂ =>
            cases h
            exact ⟨_, hl.tail (.exiting hc hk), .exit hg₂⟩
          · cases h

theorem fails_of_start {g g' : Engine} {x : Halt} (h : g.start = (.error (.halt x), g')) :
    Fails ⟨g, .idle⟩ x := by
  have hs := g.starts_start
  rw [h] at hs
  cases hs with
  | halted hs hx => exact .start hs hx

/-- A valid script is always in one of its states, and its run ends with no other errors than labels that
are missing and calls that go too deep: wherever the main loop fails, in whole dispatches, and when the
global variables get their values.  An engine fails in no other way. -/
theorem foreseen_errors_only {P : Event → Prop} {script : Script} {settings : Settings}
    {around : Surroundings} {c : Course} (hv : script.validate = .ok ())
    (hc : Reachable P script settings around c) :
    script.states.contains c.engine.states.current ∧
    (∀ e, (c.Fails (.error e) ∨ (∃ event, (c.engine.dispatch event).1 = .error (.error e)) ∨
        c.engine.start.1 = .error (.halt (.error e))) →
      (∃ label, e = .undefinedLabel label) ∨ ∃ limit, e = .depthExceeded limit) ∧
    ∀ c', Step P c c' → c.engine.status ≠ .failed → c'.engine.status = .failed →
      ∃ e, c.Fails (.error e) := by
  have hscript := Script.closed_of_validate hv
  have hcon := hc.contained hscript
  have hexplicit {e : EvalError} (he : e.Foreseen) :
      (∃ label, e = .undefinedLabel label) ∨ ∃ limit, e = .depthExceeded limit := by
    cases e with
    | undefinedLabel label => exact .inl ⟨label, rfl⟩
    | depthExceeded limit => exact .inr ⟨limit, rfl⟩
    | unknownState name => exact he.elim
    | lostIndex index => exact he.elim
    | lostBranch => exact he.elim
  refine ⟨hcon.current, fun e he => ?_, fun c' h h₁ h₂ => h.fails h₁ h₂⟩
  rcases he with hf | ⟨event, hd⟩ | hs
  · exact hexplicit (hcon.foreseen hscript hf)
  · obtain ⟨c', hl, hf⟩ := fails_of_dispatch (Prod.ext hd rfl)
    have hd : Contained script ⟨c.engine, .dispatch event⟩ := hcon.of_states rfl nofun nofun
    exact hexplicit ((hd.loops hscript hl).foreseen hscript hf)
  · have hi : Contained script ⟨c.engine, .idle⟩ := hcon.of_states rfl nofun nofun
    exact hexplicit (hi.foreseen hscript (fails_of_start (Prod.ext hs rfl)))

theorem foreseen_errors_only_relay :
    relay.validate = .ok () ∧
    ∃ g, Reachable (·.high = false) relay .default (.plain []) ⟨g, .clear "next"⟩ ∧
      relay.states.contains g.states.current := by
  have hv : relay.validate = .ok () := rfl
  obtain ⟨g, hg⟩ := exists_reachable_clear (·.high = false)
  exact ⟨hv, g, hg, (foreseen_errors_only hv hg).1⟩

end Course

end PrimScript
