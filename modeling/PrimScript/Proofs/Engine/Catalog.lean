import PrimScript.Proofs.Engine.Timely
import PrimScript.Proofs.Syntax.Validity

/-! Events along a course are as the catalog has them, whoever brings them.  So a handler of a valid script
gets a value for each of its parameters, and of its type. -/

namespace PrimScript

def Frame.hold (f : Frame) : List (String × Value) → Frame
  | [] => f
  | (name, v) :: rest => hold { f with slots := f.slots.insert name ⟨v.type, v⟩ } rest

theorem Frame.bind_eq_hold {ps : List Param} {args : List Value}
    (ht : ps.map Param.type = args.map Value.type) (hs : ∀ v ∈ args, v.Stays) (f : Frame) :
    f.bind ps args = f.hold ((ps.map Param.name).zip args) := by
  induction ps generalizing args f with
  | nil => rfl
  | cons p ps ih =>
    cases args with
    | nil => cases ht
    | cons v args =>
      rw [List.forall_mem_cons] at hs
      obtain ⟨hp, ht⟩ := List.cons.inj ht
      have hd : f.declare p.name p.type v =
          { f with slots := f.slots.insert p.name ⟨v.type, v⟩ } := by
        rw [declare, Slot.of, hp, hs.1]
      rw [bind, hd, ih ht hs.2]
      rfl

namespace Event

/-- Events as they come from outside: by name with any arguments, from chat that is heard, and from a
visitor. -/
inductive Arriving : Event → Prop
  | named {name : String} {args : List Value} {e : Event} (detected : List Entity) :
    Event.named name args = .ok e → Arriving (e.withDetected detected)
  | heard (channel : Int32) (name key message : String) :
    Arriving (Course.heard channel name key message)
  | visited {kind : EventKind} (detected : List Entity) : kind ∈ [.touchStart, .touchEnd, .sensor] →
    Arriving ((ofKind kind [.integer 1]).withDetected detected)

variable {e : Event}

theorem fitting_of_wellFormed (hc : e.Conforms) (h : ∀ v ∈ e.args, v.WellFormed) : e.Fitting :=
  ⟨hc, fun v hv => (h v hv).stays⟩

theorem Own.fitting (h : e.Own) : e.Fitting := fitting_of_wellFormed h.conforms h.args

theorem fitting_of_expected (h : World.Expected Fitting e) : e.Fitting := by
  rcases h with h | rfl
  · exact h
  · exact ⟨rfl, nofun⟩

theorem Arriving.fitting (h : e.Arriving) : e.Fitting := by
  cases h with
  | named detected h =>
    obtain ⟨hc, hs⟩ := fitting_of_named h
    exact ⟨hc, hs⟩
  | heard channel name key message =>
    exact fitting_of_wellFormed rfl
      (by simp [Course.heard, ofKind, Value.WellFormed, Value.ofKey, Key.isCanonical_normalize])
  | visited detected hk =>
    refine fitting_of_wellFormed ?_ (by simp [withDetected, ofKind, Value.WellFormed])
    simp only [List.mem_cons, List.not_mem_nil, or_false] at hk
    rcases hk with rfl | rfl | rfl <;> rfl

end Event

namespace Course

inductive Runs : Course → Handler → Event → Prop
  | handler {g : Engine} {e : Event} {h : Handler} :
    g.states.handler? e.kind.name = some h → Runs ⟨g, .dispatch e⟩ h e
  | exit (g : Engine) (h : Handler) (target : String) :
    Runs ⟨g, .exit h target⟩ h (.ofKind .stateExit [])

inductive Arrival (g : Engine) : Engine → Prop
  | named (name : String) (args : List Value) (detected : List Entity) :
    Arrival g (g.injectNamed name args detected).2
  | heard (channel : Int32) (name key message : String) : Arrival g (g.hear channel name key message).2
  | touched (name key : String) : Arrival g (g.touch name key).2
  | sensed (name key : String) : Arrival g (g.sense name key).2

theorem Arrival.steps {g g' : Engine} (h : Arrival g g') (phase : Phase) :
    Steps Event.Arriving ⟨g, phase⟩ ⟨g', phase⟩ := by
  cases h with
  | named name args detected =>
    unfold Engine.injectNamed
    split
    · exact .refl
    · next e he =>
      obtain ⟨kind, args, rfl⟩ := Event.exists_ofKind_of_named he
      exact steps_inject g phase rfl rfl (.named detected he)
  | heard channel name key message =>
    exact steps_hear g phase channel name key message (.heard channel name key message)
  | touched name key =>
    exact steps_injectAll g phase (by simp [Event.withDetected, Event.ofKind])
      (by simp [Event.Arriving.visited])
  | sensed name key =>
    have hp : Step Event.Arriving ⟨g, phase⟩ ⟨g.place (g.visitor name key), phase⟩ :=
      .outside ⟨g, phase⟩ (o := .place (g.visitor name key)) trivial
    exact (Steps.one hp).trans (steps_inject _ phase rfl rfl (.visited _ (by simp)))

variable {script : Script} {settings : Settings} {around : Surroundings} {c : Course}

theorem Runs.handler? {h : Handler} {e : Event} (hr : c.Runs h e) (hc : Regular script c) :
    c.engine.states.handler? e.kind.name = some h := by
  cases hr with
  | handler hh => exact hh
  | exit g h target => exact (hc.exit h target rfl).2

/-- Every event that was ever queued, is to be dispatched or is about to be handled is as the catalog has
it; where the script is valid, the parameters of the handler get the arguments as they are, one for each;
and whatever comes from outside leads to such courses again. -/
theorem events_conform (hc : Reachable Event.Arriving script settings around c) :
    (∀ e, e ∈ c.queue.accepted ∨ e ∈ c.queue.toList ∨ c.phase = .dispatch e ∨ (∃ h, c.Runs h e) →
      e.Conforms) ∧
    (script.validate = .ok () → ∀ h e, c.Runs h e → h.params.length = e.args.length ∧
      ∀ f : Frame, f.bind h.params e.args = f.hold ((h.params.map Param.name).zip e.args)) ∧
    ∀ g, Arrival c.engine g → Reachable Event.Arriving script settings around ⟨g, c.phase⟩ := by
  have hs : Sound Event.Fitting settings c :=
    (hc.mono fun _ he => he.fitting).sound fun _ he => he.fitting
  have hr : ∀ h e, c.Runs h e → e.Fitting := by
    intro h e hr
    cases hr with
    | handler => exact Event.fitting_of_expected (hs.dispatch e rfl)
    | exit => exact ⟨rfl, nofun⟩
  refine ⟨fun e he => ?_, fun hv h e hrun => ?_, fun g hg => Relation.ReflTransGen.trans hc (hg.steps _)⟩
  · rcases he with he | he | he | ⟨h, he⟩
    · exact (Event.fitting_of_expected (hs.world.took e he)).conforms
    · exact (Event.fitting_of_expected (hs.world.queued e he)).conforms
    · exact (Event.fitting_of_expected (hs.dispatch e he)).conforms
    · exact (hr h e he).conforms
  · have hreg : Regular script c := hc.regular
    have hh := hrun.handler? hreg
    rw [StateMachine.handler?, hreg.script_eq] at hh
    have ht : h.params.map Param.type = e.args.map Value.type :=
      (Script.types_of_checkHandler (Script.checkHandler_of_validate hv hh)).trans
        (hr h e hrun).conforms.symm
    exact ⟨by simpa using congrArg List.length ht, Frame.bind_eq_hold ht (hr h e hrun).stays⟩

def doorbell : Script where
  globals := []
  functions := []
  states := [("default", [("touch_start", ⟨[⟨.integer, "touches"⟩], []⟩)])]

/-- A text that comes for a number, and a key too many, are dealt with before the event is queued. -/
theorem events_conform_doorbell :
    doorbell.validate = .ok () ∧ ∃ c h e, Reachable Event.Arriving doorbell .default (.plain []) c ∧
      c.Runs h e ∧ e.Conforms ∧ ∀ f : Frame, f.bind h.params e.args = f.hold [("touches", .integer 2)] := by
  have hv : doorbell.validate = .ok () := rfl
  let g := (initial doorbell .default (.plain [])).engine
  let e := (Event.ofKind .touchStart [.integer 2]).withDetected []
  let g₁ := g.start.2
  let g₂ := (g₁.injectNamed "touch_start" [.string "2", .key Key.null] []).2
  have h₁ : Reachable Event.Arriving doorbell .default (.plain []) ⟨g₁, .idle⟩ := .one (.start g)
  have h₂ : Reachable Event.Arriving doorbell .default (.plain []) ⟨g₂, .idle⟩ :=
    (events_conform h₁).2.2 g₂ (.named _ _ _)
  obtain ⟨q, q', hq, hq'⟩ : ∃ q q', g₂.world.queue.pop? = some (.entry, q) ∧ q.pop? = some (e, q') :=
    ⟨_, _, rfl, rfl⟩
  let g₃ := g₂.mapWorld (·.setQueue q)
  have h₃ := (h₂.tail (.loop (.pop rfl hq))).tail (.loop (.unhandled rfl))
  have h₄ := h₃.tail (.loop (.pop rfl hq'))
  have hr : Runs ⟨g₃.mapWorld (·.setQueue q'), .dispatch e⟩ _ e := .handler rfl
  have hall := events_conform h₄
  exact ⟨hv, _, _, e, h₄, hr, hall.1 e (.inr (.inr (.inl rfl))), (hall.2.1 hv _ e hr).2⟩

end Course

end PrimScript
