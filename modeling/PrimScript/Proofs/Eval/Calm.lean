import PrimScript.Proofs.Eval.Stable

/-! Calm runs: those in which no limit is used up and no state is asked for.  A run is calm when its
parts are, and in a calm one there is never a request to take note of. -/

namespace PrimScript

def Moment.Calm : Moment → Prop
  | .stack _ => True
  | .request _ => False
  | .stated _ => True
  | .capped => False

namespace Machine

/-- `m` comes after `m₀`, and unless a limit was used up or a request was made there is no request where
there was none. -/
def Later (m₀ m : Machine) : Prop :=
  ∃ later, m.past.toList = m₀.past.toList ++ later ∧
    ((∀ x ∈ later, x.Calm) → m₀.requested = none → m.requested = none)

/-- `m` comes after `m₀`, where no state had been asked for, and since then the limits were kept and
no state was asked for. -/
structure Calm (m₀ m : Machine) : Prop where
  requested : m₀.requested = none
  later : ∃ later, m.past.toList = m₀.past.toList ++ later ∧ ∀ x ∈ later, x.Calm

variable {m₀ m m' : Machine}

namespace Later

theorem refl (m : Machine) : Later m m := ⟨[], by simp, fun _ h => h⟩

theorem trans (h : Later m₀ m) (h' : Later m m') : Later m₀ m' := by
  obtain ⟨later, hp, hr⟩ := h
  obtain ⟨later', hp', hr'⟩ := h'
  refine ⟨later ++ later', by rw [hp', hp, List.append_assoc], ?_⟩
  intro hc hm
  obtain ⟨hl, hl'⟩ := List.forall_mem_append.1 hc
  exact hr' hl' (hr hl hm)

theorem setStack (h : Later m₀ m) (s : CallStack) : Later m₀ (m.setStack s) :=
  h.trans ⟨[.stack s], by simp [Machine.setStack, note], fun _ hm => hm⟩

theorem note {x : Moment} (h : Later m₀ m) (hx : ¬x.Calm) : Later m₀ (m.note x) :=
  h.trans ⟨[x], by simp [Machine.note], fun hc => (hx (hc x (List.mem_singleton_self x))).elim⟩

theorem stated (h : Later m₀ m) (target : String) : Later m₀ (m.note (.stated target)) :=
  h.trans ⟨[.stated target], by simp [Machine.note], fun _ hm => hm⟩

theorem request (h : Later m₀ m) (target : String) : Later m₀ (m.request target) :=
  h.trans ⟨[.request target], by simp [Machine.request, Machine.note],
    fun hc => (hc (.request target) (List.mem_singleton_self _)).elim⟩

end Later

namespace Calm

theorem left (h : Calm m₀ m') (hl : Later m₀ m) (hr : Later m m') : Calm m₀ m := by
  obtain ⟨hm, later, hp, hc⟩ := h
  obtain ⟨first, hf, -⟩ := hl
  obtain ⟨second, hs, -⟩ := hr
  refine ⟨hm, first, hf, ?_⟩
  rw [hs, hf, List.append_assoc] at hp
  cases List.append_cancel_left hp
  exact (List.forall_mem_append.1 hc).1

theorem right (h : Calm m₀ m') (hl : Later m₀ m) (hr : Later m m') : Calm m m' := by
  have hm := (h.left hl hr).later
  obtain ⟨hm₀, later, hp, hc⟩ := h
  obtain ⟨first, hf, hq⟩ := hl
  obtain ⟨second, hs, -⟩ := hr
  rw [hs, hf, List.append_assoc] at hp
  cases List.append_cancel_left hp
  obtain ⟨hcf, hcs⟩ := List.forall_mem_append.1 hc
  exact ⟨hq hcf hm₀, second, hs, hcs⟩

theorem not_note {x : Moment} (hl : Later m₀ m) (hr : Later (m.note x) m') (hx : ¬x.Calm) :
    ¬Calm m₀ m' := by
  rintro ⟨-, later, hp, hc⟩
  obtain ⟨first, hf, -⟩ := hl
  obtain ⟨second, hs, -⟩ := hr
  rw [hs, Machine.note, History.toList_push, hf, List.append_assoc, List.append_assoc] at hp
  cases List.append_cancel_left hp
  exact hx (hc x (by simp))

end Calm

end Machine

open Eval Machine

theorem Eval.framed_later (m₀ : Machine) : Framed (Later m₀) fun _ => True where
  closed := .all
  warn _ _ hm := hm
  stated _ hm := hm.stated _
  capped hm := hm.note id
  taken hm := by
    obtain ⟨later, hp, -⟩ := hm
    exact ⟨later, hp, fun _ _ => rfl⟩
  slot _ _ := trivial
  declare _ _ _ hm _ := hm.setStack _
  assign hm _ _ := ⟨trivial, hm.setStack _⟩
  library _ _ _ := by
    intro m hm
    rw [on_callLibrary_snd]
    exact ⟨hm, fun _ _ => trivial⟩
  request target hm := hm.request target
  enter _ _ _ _ hm _ := hm.setStack _
  leave hm := hm.setStack _

namespace Eval

variable {α β : Type}

def Onward (act : Eval α) : Prop := ∀ m, Later m (act.on m).2

namespace Onward

theorem pure (a : α) : Onward (pure a) := fun m => .refl m

theorem fail (e : EvalError) : Onward (fail e : Eval α) := fun m => .refl m

theorem of_ensures {act : Eval α} {W : α → Prop} (h : ∀ m₀, Ensures (Later m₀) W act) :
    Onward act := fun m => (h m m (.refl m)).1

theorem bind {act : Eval α} {next : α → Eval β} (h : Onward act) (hn : ∀ a, Onward (next a)) :
    Onward (act >>= next) := by
  intro m
  have hm := h m
  rw [on_bind]
  rcases hr : act.on m with ⟨e | a, n⟩
  · rw [hr] at hm
    exact hm
  · rw [hr] at hm
    exact hm.trans (hn a n)

end Onward

end Eval

def Scope.Onward (s : Scope) : Prop := ∀ m₀, s.Keeps (Later m₀) fun _ => True

namespace Scope

theorem onward_ofScript (script : Script) (settings : Settings) (detected : List Entity)
    (n : Nat) : (ofScript script settings detected n).Onward :=
  fun m₀ => (framed_later m₀).keeps script settings detected n

namespace Onward

variable {s : Scope} (h : s.Onward)
include h

theorem effects (es : List Expr) : Eval.Onward (s.effects es) :=
  .of_ensures fun m₀ => s.ensures_effects (framed_later m₀).toStable (h m₀) es

theorem test (condition : Expr) : Eval.Onward (s.test condition) :=
  .of_ensures fun m₀ => s.ensures_test (framed_later m₀).toStable (h m₀) condition

theorem run (t : Stmt) (entry : Entry) : Eval.Onward (t.run s entry) :=
  .of_ensures fun m₀ => t.ensures_run (framed_later m₀).toStable (h m₀) entry

end Onward

end Scope

end PrimScript
