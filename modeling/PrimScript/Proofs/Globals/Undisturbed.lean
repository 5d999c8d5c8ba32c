import PrimScript.Proofs.Eval.Request
import PrimScript.Proofs.Globals.Alone

/-! Runs without a handler, in which nobody takes note of requests but the functions that come next.  As long
as no function is at work once a state has been asked for, each of them does what it does on its own. -/

namespace PrimScript

open Eval

def Quiet (moments : List Moment) : Prop := ∀ s, .stack s ∈ moments → s.frames = []

theorem quiet_append {xs ys : List Moment} : Quiet (xs ++ ys) ↔ Quiet xs ∧ Quiet ys := by
  simp only [Quiet, List.mem_append, or_imp, forall_and]

namespace Machine

variable {m k n : Machine}

def Traced (m n : Machine) : Prop :=
  ∃ later, Since m later n ∧
    (n.requested.isSome → m.requested.isSome ∨ ∃ target, .request target ∈ later)

/-- Between the two machines no function is at work once a state has been asked for. -/
def Undisturbed (m n : Machine) : Prop :=
  ∃ later, Since m later n ∧ (m.requested.isSome → Quiet later) ∧
    ∀ before target after, later = before ++ .request target :: after → Quiet after

def Ready (m : Machine) : Prop := m.stack.frames = [] ∨ m.requested = none

structure Unasked (m n : Machine) : Prop where
  depth : n.stack.depth = m.stack.depth
  later : ∃ later, Since m later n
  requested : n.requested.isSome → m.requested.isSome

theorem Since.refl (m : Machine) : Since m [] m := (List.append_nil _).symm

theorem Since.trans {xs ys : List Moment} (h : Since m xs k) (h' : Since k ys n) : Since m (xs ++ ys) n := by
  rw [Since, h', h, List.append_assoc]

namespace Traced

theorem trans (h : Traced m k) (h' : Traced k n) : Traced m n := by
  obtain ⟨xs, hx, hm⟩ := h
  obtain ⟨ys, hy, hk⟩ := h'
  refine ⟨xs ++ ys, hx.trans hy, fun hn => ?_⟩
  rcases hk hn with hk | ⟨target, ht⟩
  · exact (hm hk).imp_right fun ⟨target, ht⟩ => ⟨target, List.mem_append_left _ ht⟩
  · exact .inr ⟨target, List.mem_append_right _ ht⟩

theorem setStack (m : Machine) (s : CallStack) : Traced m (m.setStack s) :=
  ⟨[.stack s], (Since.refl m).note (.stack s), .inl⟩

theorem request (m : Machine) (target : String) : Traced m (m.request target) :=
  ⟨[.request target], (Since.refl m).note (.request target),
    fun _ => .inr ⟨target, List.mem_singleton_self _⟩⟩

theorem of_unasked (h : Unasked m n) : Traced m n := by
  obtain ⟨-, ⟨later, hl⟩, hr⟩ := h
  exact ⟨later, hl, fun hn => .inl (hr hn)⟩

end Traced

theorem Undisturbed.split (h : Undisturbed m n) (hl : Traced m k) (hr : Traced k n) :
    Undisturbed m k ∧ Undisturbed k n := by
  obtain ⟨later, hp, hm, hs⟩ := h
  obtain ⟨xs, hx, hk⟩ := hl
  obtain ⟨ys, hy, -⟩ := hr
  cases List.append_cancel_left (hp.symm.trans (hx.trans hy))
  refine ⟨⟨xs, hx, fun h => (quiet_append.1 (hm h)).1, ?_⟩, ys, hy, fun h => ?_, ?_⟩
  · rintro before target after rfl
    exact (quiet_append.1 (hs before target (after ++ ys) (by simp))).1
  · rcases hk h with h | ⟨target, ht⟩
    · exact (quiet_append.1 (hm h)).2
    · obtain ⟨before, after, rfl⟩ := List.append_of_mem ht
      exact (quiet_append.1 (hs before target (after ++ ys) (by simp))).2
  · rintro before target after rfl
    exact hs (xs ++ before) target after (by simp)

theorem Undisturbed.of_request {xs ys : List Moment} {target : String}
    (h : Since m (xs ++ .request target :: ys) n) (hm : m.requested = none)
    (hx : ∀ t, .request t ∉ xs) (hy : ∀ t, .request t ∉ ys) (hq : Quiet ys) : Undisturbed m n := by
  refine ⟨_, h, by simp [hm], fun before t after he => ?_⟩
  rcases List.append_eq_append_iff.1 he with ⟨zs, -, hz⟩ | ⟨zs, hz, hz'⟩
  · cases zs with
    | nil =>
      cases hz
      exact hq
    | cons z zs =>
      cases hz
      exact absurd (by simp) (hy t)
  · cases zs with
    | nil =>
      cases hz'
      exact hq
    | cons z zs =>
      cases hz'
      exact absurd (by simp [hz]) (hx t)

theorem Ready.of_unasked (h : m.Ready) (hu : Unasked m n) : n.Ready := by
  rcases h with h | h
  · left
    have hd := hu.depth
    rw [CallStack.depth, CallStack.depth, h] at hd
    exact List.length_eq_zero_iff.1 hd
  · right
    have hr := hu.requested
    rw [h] at hr
    exact Option.not_isSome_iff_eq_none.1 fun hs => Bool.false_ne_true (hr hs)

end Machine

open Machine

theorem Eval.stable_unasked (m₀ : Machine) : Stable (Unasked m₀) fun _ => True where
  closed := .all
  warn _ _ hm := ⟨hm.depth, hm.later, hm.requested⟩
  stated _ hm := ⟨hm.depth, hm.later.imp' (· ++ [_]) fun _ h => h.note _, hm.requested⟩
  capped hm := ⟨hm.depth, hm.later.imp' (· ++ [_]) fun _ h => h.note _, hm.requested⟩
  taken hm := ⟨hm.depth, hm.later, nofun⟩
  slot _ _ := trivial
  declare name type _ hm _ :=
    ⟨(CallStack.depth_declare _ name type _).trans hm.depth, hm.later.imp' (· ++ [_]) fun _ h => h.note _,
      hm.requested⟩
  assign hm _ hs :=
    ⟨trivial, (CallStack.frames_of_assign hs).1.trans hm.depth, hm.later.imp' (· ++ [_]) fun _ h => h.note _,
      hm.requested⟩
  library _ _ _ := by
    intro m hm
    rw [on_callLibrary_snd]
    exact ⟨⟨hm.depth, hm.later, hm.requested⟩, fun _ _ => trivial⟩

/-- The second action does what the first one does, unless a request disturbs a function in that. -/
def Eval.Unless (α : Type) (act act' : Eval α) : Prop :=
  ∀ m, (act.on m).2.stack.depth = m.stack.depth ∧ Traced m (act.on m).2 ∧
    (m.Ready → Undisturbed m (act.on m).2 → act'.on m = act.on m ∧ (act.on m).2.Ready)

theorem Eval.congruence_unless : Congruence Unless Unasked where
  stable := stable_unasked
  basic {_ act} h m := by
    have hu := (h m m ⟨rfl, ⟨[], .refl m⟩, id⟩).1
    exact ⟨hu.depth, .of_unasked hu, fun hm _ => ⟨rfl, hm.of_unasked hu⟩⟩
  bind {_ _ act act' next next'} h hn m := by
    obtain ⟨hd, ht, hr⟩ := h m
    rw [on_bind, on_bind]
    rcases hact : act.on m with ⟨x | a, k⟩
    · rw [hact] at hd ht hr
      refine ⟨hd, ht, fun hm hc => ?_⟩
      obtain ⟨he, hk⟩ := hr hm hc
      exact ⟨by rw [he], hk⟩
    · rw [hact] at hd ht hr
      obtain ⟨hd', ht', hr'⟩ := hn a k
      refine ⟨hd'.trans hd, ht.trans ht', fun hm hc => ?_⟩
      obtain ⟨hfirst, hsecond⟩ := hc.split ht ht'
      obtain ⟨he, hk⟩ := hr hm hfirst
      obtain ⟨he', hn'⟩ := hr' hk hsecond
      exact ⟨by rw [he]; exact he', hn'⟩

namespace Machine

variable {m : Machine} {s : CallStack}

theorem Undisturbed.requested_eq_none (h : Undisturbed m (m.setStack s)) (hs : s.frames ≠ []) :
    m.requested = none := by
  obtain ⟨later, hl, hm, -⟩ := h
  cases List.append_cancel_left (hl.symm.trans ((Since.refl m).note (.stack s)))
  exact Option.not_isSome_iff_eq_none.1 fun h => hs (hm h s (List.mem_singleton_self _))

theorem Undisturbed.frames_eq_nil {target : String} (h : Undisturbed m ((m.request target).setStack s)) :
    s.frames = [] := by
  obtain ⟨later, hl, -, hr⟩ := h
  cases List.append_cancel_left (hl.symm.trans (((Since.refl m).note (.request target)).note (.stack s)))
  exact hr [] target [.stack s] rfl s (List.mem_singleton_self _)

end Machine

theorem Function.unless_act (f : Function) {s s' : Scope}
    (h : Unless Flow (s.runBody f.body) (s'.runBody f.body)) {k : Machine} (hk : k.stack.frames ≠ []) :
    let r := (f.act s).on k
    r.2.stack.depth = k.stack.depth ∧ Traced k r.2 ∧
      (k.Ready → Undisturbed k r.2 → (f.act s').on k = r ∧
        (r.2.requested = none ∨ ∃ n target, Traced k n ∧ r.2 = n.request target)) := by
  obtain ⟨hd, ht, hr⟩ := h k
  have hframes {n : Machine} (hn : n.stack.depth = k.stack.depth) (hready : n.Ready) :
      n.requested = none := by
    refine hready.resolve_left fun he => hk (List.length_eq_zero_iff.1 ?_)
    rw [CallStack.depth, he] at hn
    exact hn.symm
  dsimp only
  rw [f.on_act, f.on_act]
  rcases hb : (s.runBody f.body).on k with ⟨x | flow, n⟩
  · rw [hb] at hd ht hr
    refine ⟨hd, ht, fun hready hc => ?_⟩
    obtain ⟨he, hn⟩ := hr hready hc
    exact ⟨by rw [he], .inl (hframes hd hn)⟩
  · rw [hb] at hd ht hr
    rcases n.afterBody_eq flow with ha | ⟨target, ha⟩
    · dsimp only
      rw [ha]
      refine ⟨hd, ht, fun hready hc => ?_⟩
      obtain ⟨he, hn⟩ := hr hready hc
      refine ⟨?_, .inl (hframes hd hn)⟩
      rw [he]
      dsimp only
      rw [ha]
    · dsimp only
      rw [ha]
      refine ⟨hd, ht.trans (.request n target), fun hready hc => ?_⟩
      obtain ⟨he, -⟩ := hr hready (hc.split ht (.request n target)).1
      refine ⟨?_, .inr ⟨n, target, ht, rfl⟩⟩
      rw [he]
      dsimp only
      rw [ha]

/-- A function that runs on its own does what it does otherwise, unless a request disturbs it or it disturbs
one that has called it. -/
theorem Function.unless_runAlone (f : Function) {s s' : Scope}
    (h : Unless Flow (s.runBody f.body) (s'.runBody f.body)) (name : String) (args : List Value) :
    Unless Value (f.run s name args) (f.runAlone s' name args) := by
  intro m
  let k := m.setStack (m.stack.push ((Frame.empty name f.returns).bind f.params args))
  have htk : Traced m k := .setStack m _
  obtain ⟨hd, ht, hr⟩ := f.unless_act h (k := k) (List.cons_ne_nil _ _)
  have hrun : (f.run s name args).on m =
      (((f.act s).on k).1, ((f.act s).on k).2.setStack ((f.act s).on k).2.stack.pop) := rfl
  have hrun' : (f.run s' name args).on m =
      (((f.act s').on k).1, ((f.act s').on k).2.setStack ((f.act s').on k).2.stack.pop) := rfl
  rw [hrun]
  generalize (f.act s).on k = r at hd ht hr hrun
  have htp : Traced r.2 (r.2.setStack r.2.stack.pop) := .setStack _ _
  refine ⟨?_, (htk.trans ht).trans htp, fun _ hc => ?_⟩
  · rw [Machine.setStack, Machine.note]
    dsimp only
    rw [CallStack.depth_pop, hd]
    rfl
  · obtain ⟨hmk, hkp⟩ := hc.split htk (ht.trans htp)
    have hm : m.requested = none := hmk.requested_eq_none (List.cons_ne_nil _ _)
    obtain ⟨he, hend⟩ := hr (.inr hm) (hkp.split ht htp).1
    have hready : (r.2.setStack r.2.stack.pop).Ready := by
      rcases hend with hnone | ⟨n, target, hn, hreq⟩
      · exact .inr hnone
      · rw [hreq] at hkp htp ⊢
        exact .inl (hkp.split hn ((Traced.request n target).trans htp)).2.frames_eq_nil
    refine ⟨?_, hready⟩
    rw [runAlone, on_bind, on_modify]
    dsimp only
    rw [forget_eq hm, on_bind, hrun', he]
    rcases r with ⟨x | v, n⟩
    · rfl
    · have hforget : (if (n.setStack n.stack.pop).stack.frames = [] then n.setStack n.stack.pop
          else { n.setStack n.stack.pop with requested := none }) = n.setStack n.stack.pop := by
        split
        · rfl
        · next hf => exact forget_eq (hready.resolve_left hf)
      exact congrArg (Prod.mk (Except.ok v)) hforget

/-- So it is for calls: by induction on how deep they may be. -/
theorem Scope.unless_alone (script : Script) (settings : Settings) (n : Nat) (name : String) (f : Function)
    (args : List Value) :
    Unless Value ((ofScript script settings [] n).invoke name f args)
      ((alone script settings n).invoke name f args) := by
  induction n generalizing name f args with
  | zero => exact congruence_unless.fail _
  | succ n ih =>
    have hbody := related_runBody congruence_unless (fun name f args _ => ih name f args) f.body
    rw [← alone_eq_calling] at hbody
    exact f.unless_runAlone hbody name args

end PrimScript
