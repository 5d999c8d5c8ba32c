import PrimScript.Proofs.Eval.Stable

/-! Frames of the call stack.  Evaluation goes on in the frame it began in: however it ends, there are
as many frames as before, and those below the top are as they were.  What a function does happens
above the frames of its caller. -/

namespace PrimScript

namespace CallStack

theorem length_frames_declare (s : CallStack) (name : String) (type : ValueType) (v : Value) :
    (s.declare name type v).frames.length = s.frames.length := s.depth_declare name type v

theorem tail_frames_declare (s : CallStack) (name : String) (type : ValueType) (v : Value) :
    (s.declare name type v).frames.tail = s.frames.tail := by
  unfold declare
  split <;> simp_all

theorem frames_of_assignGlobal {s stack : CallStack} {name : String} {v stored : Value}
    (h : s.assignGlobal name v = .ok (stored, stack)) : stack.frames = s.frames := by
  unfold assignGlobal at h
  split at h
  · cases h
    rfl
  · split at h <;> cases h

theorem frames_of_assign {s stack : CallStack} {name : String} {v stored : Value}
    (h : s.assign name v = .ok (stored, stack)) :
    stack.frames.length = s.frames.length ∧ stack.frames.tail = s.frames.tail := by
  unfold assign at h
  split at h
  · next f rest hs =>
    split at h
    · cases h
      simp [hs]
    · rw [frames_of_assignGlobal h]
      exact ⟨rfl, rfl⟩
  · rw [frames_of_assignGlobal h]
    exact ⟨rfl, rfl⟩

end CallStack

namespace Machine

/-- `m` comes after `m₀`, and the call stacks in between stood on the frames `base` and were at most
`limit` deep. -/
def Over (base : List Frame) (limit : Nat) (m₀ m : Machine) : Prop :=
  ∃ later, m.past.toList = m₀.past.toList ++ later ∧
    ∀ s, .stack s ∈ later → base <:+ s.frames ∧ s.depth ≤ limit

namespace Over

variable {base base' : List Frame} {limit limit' : Nat} {m₀ m m' : Machine}

theorem refl (base : List Frame) (limit : Nat) (m : Machine) : Over base limit m m :=
  ⟨[], by simp, by simp⟩

theorem trans (h : Over base limit m₀ m) (h' : Over base limit m m') : Over base limit m₀ m' := by
  obtain ⟨later, hp, hl⟩ := h
  obtain ⟨later', hp', hl'⟩ := h'
  refine ⟨later ++ later', by rw [hp', hp, List.append_assoc], ?_⟩
  intro s hs
  exact (List.mem_append.1 hs).elim (hl s) (hl' s)

theorem mono (h : Over base limit m₀ m) (hb : base' <:+ base) (hl : limit ≤ limit') :
    Over base' limit' m₀ m := by
  obtain ⟨later, hp, hs⟩ := h
  exact ⟨later, hp, fun s h => ⟨hb.trans (hs s h).1, Nat.le_trans (hs s h).2 hl⟩⟩

theorem setStack (m : Machine) {s : CallStack} (hb : base <:+ s.frames) (hd : s.depth ≤ limit) :
    Over base limit m (m.setStack s) := by
  refine ⟨[.stack s], by simp [Machine.setStack, note], ?_⟩
  intro s' hs'
  cases List.mem_singleton.1 hs'
  exact ⟨hb, hd⟩

theorem request (base : List Frame) (limit : Nat) (m : Machine) (state : String) :
    Over base limit m (m.request state) :=
  ⟨[.request state], by simp [Machine.request, note], by simp⟩

theorem stated (base : List Frame) (limit : Nat) (m : Machine) (target : String) :
    Over base limit m (m.note (.stated target)) :=
  ⟨[.stated target], by simp [note], by simp⟩

theorem capped (base : List Frame) (limit : Nat) (m : Machine) :
    Over base limit m (m.note .capped) :=
  ⟨[.capped], by simp [note], by simp⟩

end Over

/-- `m` comes after `m₀` and is in the same frame: there are as many frames, those below the top are
as they were, and they were in place all the time. -/
structure SameFrame (limit : Nat) (m₀ m : Machine) : Prop where
  length : m.stack.frames.length = m₀.stack.frames.length
  tail : m.stack.frames.tail = m₀.stack.frames.tail
  above : Over m₀.stack.frames.tail limit m₀ m

namespace SameFrame

variable {limit : Nat} {m₀ m m' : Machine}

theorem refl (limit : Nat) (m : Machine) : SameFrame limit m m := ⟨rfl, rfl, .refl _ _ _⟩

theorem trans (h : SameFrame limit m₀ m) (h' : SameFrame limit m m') : SameFrame limit m₀ m' where
  length := h'.length.trans h.length
  tail := h'.tail.trans h.tail
  above := h.above.trans (h.tail ▸ h'.above)

theorem setStack {s : CallStack} (hd : m.stack.depth ≤ limit)
    (hl : s.frames.length = m.stack.frames.length) (ht : s.frames.tail = m.stack.frames.tail) :
    SameFrame limit m (m.setStack s) where
  length := hl
  tail := ht
  above := .setStack m (ht ▸ List.tail_suffix _) (Nat.le_trans (Nat.le_of_eq hl) hd)

theorem depth (h : SameFrame limit m₀ m) : m.stack.depth = m₀.stack.depth := h.length

theorem frames_eq (h : SameFrame limit m₀ m) (hm : m₀.stack.frames = []) : m.stack.frames = [] :=
  List.length_eq_zero_iff.1 (by rw [h.length, hm]; rfl)

end SameFrame

end Machine

open Eval Machine

section

variable {limit : Nat} {m₀ : Machine}

theorem Eval.stable_sameFrame (hd : m₀.stack.depth ≤ limit) :
    Stable (SameFrame limit m₀) fun _ => True where
  closed := .all
  warn _ _ hm := ⟨hm.length, hm.tail, hm.above⟩
  stated target hm := ⟨hm.length, hm.tail, hm.above.trans (.stated _ _ _ target)⟩
  capped hm := ⟨hm.length, hm.tail, hm.above.trans (.capped _ _ _)⟩
  taken hm := ⟨hm.length, hm.tail, hm.above⟩
  slot _ _ := trivial
  declare name type _ hm _ := hm.trans <| .setStack (hm.depth ▸ hd)
    (CallStack.length_frames_declare _ name type _) (CallStack.tail_frames_declare _ name type _)
  assign hm _ hs := by
    obtain ⟨hl, ht⟩ := CallStack.frames_of_assign hs
    exact ⟨trivial, hm.trans (.setStack (hm.depth ▸ hd) hl ht)⟩
  library _ _ _ := by
    intro m hm
    rw [on_callLibrary_snd]
    exact ⟨⟨hm.length, hm.tail, hm.above⟩, fun _ _ => trivial⟩

theorem Eval.frames_on_withFrame {α : Type} {f : Frame} {act : Eval α} {m : Machine}
    (hd : m.stack.depth < limit)
    (h : SameFrame limit (m.setStack (m.stack.push f))
      (act.on (m.setStack (m.stack.push f))).2) :
    ((withFrame f act).on m).2.stack.frames = m.stack.frames ∧
      Over m.stack.frames limit m ((withFrame f act).on m).2 := by
  rw [on_withFrame]
  refine ⟨h.tail, (Over.setStack m ⟨[f], rfl⟩ hd).trans (h.above.trans ?_)⟩
  apply Over.setStack
  · change m.stack.frames <:+ CallStack.frames (CallStack.pop _)
    rw [CallStack.pop, h.tail]
    exact List.suffix_rfl
  · rw [CallStack.depth_pop, h.depth]
    change m.stack.depth + 1 - 1 ≤ limit
    omega

end

variable {s : Scope} {limit : Nat}

theorem Function.frames_on_run (f : Function) (name : String) (args : List Value) {m : Machine}
    (hd : m.stack.depth < limit)
    (hs : ∀ {m₀ : Machine}, m₀.stack.depth = m.stack.depth + 1 →
      s.Keeps (SameFrame limit m₀) fun _ => True) :
    ((f.run s name args).on m).2.stack.frames = m.stack.frames ∧
      Over m.stack.frames limit m ((f.run s name args).on m).2 := by
  rw [f.run_eq]
  apply frames_on_withFrame hd
  have hr {m₀ m : Machine} (target : String) (h : SameFrame limit m₀ m) :
      SameFrame limit m₀ (m.request target) :=
    ⟨h.length, h.tail, h.above.trans (.request _ _ _ _)⟩
  exact (f.ensures_act (stable_sameFrame hd) (hs rfl) hr _ (.refl _ _)).1

theorem Scope.keeps_sameFrame (script : Script) (settings : Settings) (detected : List Entity)
    {n : Nat} {m₀ : Machine} (hd : m₀.stack.depth + n ≤ limit) :
    (ofScript script settings detected n).Keeps (SameFrame limit m₀) fun _ => True := by
  induction n generalizing m₀ with
  | zero =>
    intro name f args _ _
    exact .fail _
  | succ n ih =>
    intro name f args _ _ m hm
    have hm' : m.stack.depth + 1 + n ≤ limit := by rw [hm.depth]; omega
    obtain ⟨hf, ho⟩ := f.frames_on_run name args (s := ofScript script settings detected n)
      (Nat.lt_of_lt_of_le (by omega) hm') fun h => ih (h ▸ hm')
    refine ⟨hm.trans ⟨?_, ?_, ho.mono (List.tail_suffix _) (Nat.le_refl _)⟩, fun _ _ => trivial⟩
    · exact congrArg List.length hf
    · exact congrArg List.tail hf

theorem Handler.frames_on_run (h : Handler) (script : Script) (e : Event) (m : Machine) :
    ((h.run script e).on m).2.stack.frames = m.stack.frames ∧
      Over m.stack.frames (max (m.stack.depth + 1) m.world.settings.maxCallDepth) m
        ((h.run script e).on m).2 := by
  rw [h.run_eq]
  apply frames_on_withFrame (Nat.lt_of_lt_of_le (Nat.lt_succ_self _) (Nat.le_max_left _ _))
  rw [script.on_inScope]
  have hd : m.stack.depth + 1 ≤ max (m.stack.depth + 1) m.world.settings.maxCallDepth :=
    Nat.le_max_left _ _
  refine (h.ensures_act (stable_sameFrame hd) ?_ _ (.refl _ _)).1
  apply Scope.keeps_sameFrame
  change m.stack.depth + 1 + (m.world.settings.maxCallDepth - (m.stack.depth + 1)) ≤ _
  omega

theorem Script.sameFrame_bindGlobals (script : Script) (m : Machine) :
    SameFrame (max m.stack.depth m.world.settings.maxCallDepth) m
      ((script.inScope [] (·.bindGlobals script.globals)).on m).2 := by
  rw [script.on_inScope]
  refine (Scope.ensures_bindGlobals (stable_sameFrame (Nat.le_max_left _ _)) ?_ script.globals m
    (.refl _ _)).1
  apply Scope.keeps_sameFrame
  omega

end PrimScript
