import PrimScript.Proofs.Engine.Sound
import PrimScript.Proofs.Eval.Frames

/-! Properties of the machine that are carried along every course: those that do not look at the world and that
initial values and handlers keep.  The frames are one of them: between the steps of the main loop there are none,
and there are never more at a time than the settings allow. -/

namespace PrimScript

section

structure Machine.Carried (P : Event → Prop) (settings : Settings) (J : Machine → Prop) :
    Prop where
  world : ∀ {m} w, J m → J { m with world := w }
  bindGlobals : ∀ {m} script, m.world.settings = settings → J m → J (m.bindGlobals script).2
  handle : ∀ {m e} script h, m.world.settings = settings → World.Expected P e → J m →
    J (m.handle script h e).2

namespace Course

variable {P : Event → Prop} {settings : Settings} {J : Machine → Prop}
  (hP : ∀ e : Event, e.Own → P e) (hJ : Machine.Carried P settings J)
include hJ

theorem carried_handle {g g' : Engine} {h : Handler} {e : Event} {r : Except Halt (Option String)}
    (hw : g.world.Sound P settings) (he : World.Expected P e) (hm : J g.machine)
    (hg : g.handle h e = (r, g')) : J g'.machine := by
  cases hg
  exact hJ.handle g.script h hw.settings_eq he hm

theorem carried_halt {g : Engine} (x : Halt) (hm : J g.machine) : J (g.halt x).machine := by
  cases x with
  | error e => exact hJ.world _ hm
  | overlong => exact hJ.world _ hm

theorem carried_start {g : Engine} (hw : g.world.Sound P settings) (hm : J g.machine) :
    J g.start.2.machine := by
  have hb := hJ.bindGlobals g.script hw.settings_eq hm
  have hs := g.starts_start
  generalize g.start = r at hs ⊢
  cases hs with
  | already => exact hm
  | @halted x m _ h =>
    rw [h] at hb
    exact carried_halt hJ x hb
  | refused _ h =>
    rw [h] at hb
    exact hJ.world _ hb
  | running _ h =>
    rw [h] at hb
    exact hJ.world _ hb

include hP

theorem Loop.carried {c c' : Course} (h : Loop c c') (hc : Sound P settings c)
    (hm : J c.engine.machine) : J c'.engine.machine := by
  have hexit : World.Expected P (.ofKind .stateExit []) :=
    .inl (hP _ (Event.own_ofKind rfl rfl (by simp)))
  obtain ⟨hw, hd⟩ := hc
  cases h with
  | pop => exact hJ.world _ hm
  | unhandled => exact hm
  | handled hh hg => exact carried_handle hJ hw (hd _ rfl) hm hg
  | asked hh hg => exact carried_handle hJ hw (hd _ rfl) hm hg
  | halted hh hg => exact carried_halt hJ _ (carried_handle hJ hw (hd _ rfl) hm hg)
  | unknown => exact hJ.world _ hm
  | same => exact hm
  | other => exact hm
  | exiting => exact hm
  | exited hg => exact carried_handle hJ hw hexit hm hg
  | exitHalted hg => exact carried_halt hJ _ (carried_handle hJ hw hexit hm hg)
  | clear => exact hJ.world _ hm
  | cancelTimer => exact hJ.world _ hm
  | cancelSweep => exact hJ.world _ hm
  | dropListeners => exact hJ.world _ hm
  | enter => exact hJ.world _ hm
  | announce => exact hJ.world _ hm

theorem Step.carried {c c' : Course} (h : Step P c c') (hc : Sound P settings c)
    (hm : J c.engine.machine) : J c'.engine.machine := by
  cases h with
  | loop h => exact h.carried hP hJ hc hm
  | start g => exact carried_start hJ hc.world hm
  | stop c => exact hJ.world _ hm
  | ended g => exact hJ.world _ hm
  | outside c => exact hJ.world _ hm
  | foresee c => exact hJ.world _ hm

theorem Reachable.carried {script : Script} {around : Surroundings} {c : Course}
    (h : Reachable P script settings around c)
    (hm : J (.ofWorld (.ofSettings settings around))) : J c.engine.machine := by
  induction h with
  | refl => exact hm
  | tail hs h ih => exact h.carried hP hJ (Reachable.sound hP hs) ih

end Course

end

open Eval Machine

/-- There are no frames, and there never were more than `limit`. -/
structure Machine.Frameless (limit : Nat) (m : Machine) : Prop where
  frames : m.stack.frames = []
  depth : ∀ s, .stack s ∈ m.past.toList → s.depth ≤ limit

theorem Machine.Frameless.above {limit : Nat} {m m' : Machine} (h : m.Frameless limit)
    {base : List Frame} (ho : Over base limit m m') (hf : m'.stack.frames = []) :
    m'.Frameless limit := by
  obtain ⟨later, hp, hs⟩ := ho
  refine ⟨hf, fun s hm => ?_⟩
  rw [hp, List.mem_append] at hm
  exact hm.elim (h.depth s) fun hm => (hs s hm).2

/-- The most frames there may be at a time: a handler has one of its own in any case. -/
def Settings.frameLimit (s : Settings) : Nat := max 1 s.maxCallDepth

theorem Machine.carried_frameless (P : Event → Prop) (settings : Settings) :
    Carried P settings (Frameless settings.frameLimit) where
  world _ h := ⟨h.frames, h.depth⟩
  bindGlobals {m} script hs h := by
    have hb := script.sameFrame_bindGlobals { m with requested := none }
    have hl : max m.stack.depth m.world.settings.maxCallDepth ≤ settings.frameLimit := by
      rw [hs, CallStack.depth, h.frames, Settings.frameLimit, List.length_nil]
      omega
    exact h.above (hb.above.mono List.suffix_rfl hl) (hb.frames_eq h.frames)
  handle {m e} script f hs _ h := by
    obtain ⟨hf, ho⟩ := f.frames_on_run script e { m with requested := none }
    have hl : max (m.stack.depth + 1) m.world.settings.maxCallDepth ≤ settings.frameLimit := by
      simp [hs, CallStack.depth, h.frames, Settings.frameLimit]
    exact h.above (ho.mono List.suffix_rfl hl) (hf.trans h.frames)

/-- Evaluation goes on in the frame it began in, functions and handlers leave all frames of their
callers, and between the steps of the main loop there are no frames.  All of this holds however the
evaluation ends. -/
theorem frames_kept (script : Script) (settings : Settings) :
    (∀ (detected : List Entity) (n : Nat) (m : Machine),
      let s := Scope.ofScript script settings detected n
      let limit := m.stack.depth + n
      (∀ (e : Expr) hint, SameFrame limit m ((e.eval s hint).on m).2) ∧
      (∀ (t : Stmt) entry, SameFrame limit m ((t.run s entry).on m).2) ∧
      (∀ body, SameFrame limit m ((s.runBody body).on m).2) ∧
      (∀ globals, SameFrame limit m ((s.bindGlobals globals).on m).2) ∧
      ∀ (f : Function) name args,
        ((f.run s name args).on m).2.stack.frames = m.stack.frames ∧
        Over m.stack.frames (limit + 1) m ((f.run s name args).on m).2) ∧
    (∀ (h : Handler) (e : Event) (m : Machine),
      ((h.run script e).on m).2.stack.frames = m.stack.frames ∧
      Over m.stack.frames (max (m.stack.depth + 1) m.world.settings.maxCallDepth) m
        ((h.run script e).on m).2) ∧
    ∀ (around : Surroundings) (c : Course),
      Course.Reachable (·.high = false) script settings around c →
        c.engine.machine.Frameless (max 1 settings.maxCallDepth) := by
  refine ⟨?_, fun h e m => h.frames_on_run script e m, ?_⟩
  · intro detected n m s limit
    have hd : m.stack.depth ≤ limit := Nat.le_add_right _ _
    have h := stable_sameFrame hd
    have hs : s.Keeps (SameFrame limit m) fun _ => True :=
      Scope.keeps_sameFrame script settings detected (Nat.le_refl _)
    refine ⟨fun e hint => (e.ensures_eval h hs hint m (.refl _ _)).1,
      fun t entry => (t.ensures_run h hs entry m (.refl _ _)).1,
      fun body => (s.ensures_runBody h hs body m (.refl _ _)).1,
      fun globals => (s.ensures_bindGlobals h hs globals m (.refl _ _)).1, ?_⟩
    intro f name args
    apply f.frames_on_run name args (Nat.lt_succ_of_le hd)
    intro m₀ hm
    apply Scope.keeps_sameFrame
    rw [hm]
    omega
  · intro around c hc
    apply hc.carried (fun e he => he.high) (carried_frameless _ settings)
    exact ⟨rfl, by simp [ofWorld]⟩

end PrimScript
