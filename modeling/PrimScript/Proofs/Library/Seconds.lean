import PrimScript.Library.Sensing
import PrimScript.Library.Time
import PrimScript.Proofs.Clock.Span
import PrimScript.Proofs.Engine.Course
import PrimScript.Proofs.Eval.Run

/-! The functions that take a number of seconds: the timer, the repeated sweep and the pause.  Each first drops
what an earlier call has set up.  It does no more when the seconds ask for no span, and sets up the span when
they do and are less than `2 ^ 64`; from there on every call of it comes to no end. -/

namespace PrimScript

namespace World

def startAlarm (w : World) (period : Nat) (task : Task) : World :=
  if w.around.uptime + w.now + period < 2 ^ 63 * Span.second then
    w.setAlarm w.looping (w.now + period) task
  else w

def startTimer (w : World) (period : Nat) : World :=
  { w.startAlarm period (.timer period w.queue.epoch w.entered) with timer := some period }

def startSweep (w : World) (q : SensorQuery) (period : Nat) : World :=
  { w.startAlarm period (.sweep q w.vantage period w.queue.epoch w.entered) with sweeping := true }

theorem setPeriodic_eq (w : World) (period : Nat) (task : Task) :
    w.setPeriodic period task = w.startAlarm period task := rfl

end World

namespace Library

/-- What a function makes of the seconds in an argument of a call: it drops something, and starts something
for the span of the seconds. -/
structure Times (f : LibraryFunction) (i : Nat) (drop : World → World)
    (start : Call → World → Nat → Reply × World) (c : Call) (w : World) : Prop where
  unasked : Span.isAsked (c.float i) = false → f.run c w = (.void, drop w)
  started : Span.isAsked (c.float i) = true → c.float i < Span.tooLong →
    ∃ span < Span.limit, Span.ofSeconds? (c.float i) = some span ∧ f.run c w = start c (drop w) span
  overlong : Span.isAsked (c.float i) = true → ¬ c.float i < Span.tooLong →
    f.run c w = (.overlong, drop w)
  /-- The call comes to its end exactly when it does not ask for too long a span. -/
  ends : (f.run c w).1 ≠ .overlong ↔ (Span.isAsked (c.float i) = true → c.float i < Span.tooLong)

section Times

variable {f : LibraryFunction} {i : Nat} {drop : World → World}
  {start : Call → World → Nat → Reply × World} {c : Call} {w : World}

theorem Times.of_run (hu : Span.isAsked (c.float i) = false → f.run c w = (.void, drop w))
    (hs : Span.isAsked (c.float i) = true → f.run c w =
      match Span.ofSeconds? (c.float i) with
      | some span => start c (drop w) span
      | none => (.overlong, drop w))
    (hends : ∀ span, (start c (drop w) span).1 ≠ .overlong) : Times f i drop start c w := by
  have hstarted (ha : Span.isAsked (c.float i) = true) (hl : c.float i < Span.tooLong) :
      ∃ span < Span.limit, Span.ofSeconds? (c.float i) = some span ∧
        f.run c w = start c (drop w) span := by
    obtain ⟨span, hspan⟩ := Option.isSome_iff_exists.1 ((Span.isSome_ofSeconds?_iff ha).2 hl)
    refine ⟨span, Span.lt_limit_of_ofSeconds? hspan, hspan, ?_⟩
    rw [hs ha, hspan]
  have hoverlong (ha : Span.isAsked (c.float i) = true) (hl : ¬ c.float i < Span.tooLong) :
      f.run c w = (.overlong, drop w) := by
    have hn : Span.ofSeconds? (c.float i) = none := by
      rw [← Option.not_isSome_iff_eq_none, Span.isSome_ofSeconds?_iff ha]
      exact hl
    rw [hs ha, hn]
  refine ⟨hu, hstarted, hoverlong, fun hne ha => ?_, fun hl => ?_⟩
  · by_contra hnl
    exact hne (by rw [hoverlong ha hnl])
  · cases ha : Span.isAsked (c.float i) with
    | false =>
      rw [hu ha]
      exact Reply.noConfusion
    | true =>
      obtain ⟨span, -, -, hrun⟩ := hstarted ha (hl ha)
      rw [hrun]
      exact hends span

variable (c w)

theorem times_setTimerEvent : Times setTimerEvent 0 World.cancelTimer
    (fun _ w span => (.void, w.startTimer (max Span.milli span))) c w := by
  refine .of_run (fun ha => ?_) (fun ha => ?_) fun _ => Reply.noConfusion
  · simp [setTimerEvent, World.setTimer?, ha]
  · cases hs : Span.ofSeconds? (c.float 0) <;>
      simp [setTimerEvent, World.setTimer?, World.period?, World.startTimer, World.setPeriodic_eq, ha, hs]

theorem times_sensorRepeat : Times sensorRepeat 5 World.cancelSweep
    (fun c w span => (.void, w.startSweep (queryOf c) (max Span.milli span))) c w := by
  have hv : w.cancelSweep.vantage = w.vantage := by
    unfold World.cancelSweep
    split <;> rfl
  refine .of_run (fun ha => ?_) (fun ha => ?_) fun _ => Reply.noConfusion
  · simp [sensorRepeat, World.repeatSweep?, ha]
  · cases hs : Span.ofSeconds? (c.float 5) <;>
      simp [sensorRepeat, World.repeatSweep?, World.period?, World.startSweep, World.setPeriodic_eq, hv, ha,
        hs]

theorem times_sleep : Times sleep 0 id (fun _ w span => (.pause span, w)) c w := by
  refine .of_run (fun ha => ?_) (fun ha => ?_) fun _ => Reply.noConfusion
  · simp [sleep, ha]
  · cases hs : Span.ofSeconds? (c.float 0) <;> simp [sleep, ha, hs]

/-- Whatever the number of seconds is, the timer, the repeated sweep and the pause take it in the same way:
one that is not positive and finite only drops what was set up before, one below `2 ^ 64` starts a timer, a
sweep or a pause of its span, and every other one is too long. -/
theorem times_all :
    Times setTimerEvent 0 World.cancelTimer
      (fun _ w span => (.void, w.startTimer (max Span.milli span))) c w ∧
    Times sensorRepeat 5 World.cancelSweep
      (fun c w span => (.void, w.startSweep (queryOf c) (max Span.milli span))) c w ∧
    Times sleep 0 id (fun _ w span => (.pause span, w)) c w :=
  ⟨times_setTimerEvent c w, times_sensorRepeat c w, times_sleep c w⟩

end Times

end Library

section Sleeper

def Expr.slumber : Expr := .call "llSleep" [.literal (.float Span.tooLong)]

def Handler.slumber : Handler := ⟨[], [.expr .slumber]⟩

def Script.sleeper : Script := ⟨[], [], [("default", [("state_entry", .slumber)])]⟩

theorem Library.run_sleep (detected : List Entity) (w : World) :
    sleep.run ⟨sleep.name, [.float Span.tooLong], detected⟩ w = (.overlong, w) := by
  have hasked : Span.isAsked Span.tooLong = true := by decide +kernel
  have hlong : ¬ Span.tooLong < Span.tooLong := by decide +kernel
  exact (times_sleep _ w).overlong hasked hlong

/-- The pause never ends, and the engine is stuck in it. -/
theorem Course.stuck_sleeper :
    ∃ c, Reachable (fun _ => False) .sleeper .default (.plain []) c ∧ c.engine.status = .stuck := by
  obtain ⟨q, -, hc⟩ := exists_reachable_entry (fun _ => False) .sleeper rfl .default (.plain [])
  have hargs (s : Scope) : Expr.Given s Library.sleep.params [.literal (.float Span.tooLong)]
      [.float Span.tooLong] := .cons (v := .float Span.tooLong) rfl rfl rfl .nil
  have hr (m : Machine) : (m.handle .sleeper .slumber .entry).1 = .error .overlong :=
    Machine.fst_handle_overlong rfl rfl rfl hargs (Library.run_sleep _ _)
  exact ⟨_, hc.tail (.loop (.halted (h := .slumber) rfl (Prod.ext (hr _) rfl))), rfl⟩

end Sleeper

end PrimScript
