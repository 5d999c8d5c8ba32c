import PrimScript.Proofs.Eval.Frames

/-! Requests of states.  A statement that goes over to a state ends the body it is in; in a function the
state is then requested, and the handler takes note of it.  So a handler gives a state exactly when such
a statement was run, and leaves no request behind. -/

namespace PrimScript

open Eval Contract

namespace Machine

def Since (m₀ : Machine) (later : List Moment) (m : Machine) : Prop :=
  m.past.toList = m₀.past.toList ++ later

theorem Since.note {m₀ m : Machine} {later : List Moment} (h : Since m₀ later m) (x : Moment) :
    Since m₀ (later ++ [x]) (m.note x) := by
  rw [Since, Machine.note, History.toList_push, h, List.append_assoc]

def Stated (m₀ m : Machine) (state : String) : Prop :=
  ∃ later, Since m₀ later m ∧ .stated state ∈ later

/-- `m` comes after `m₀`, and what is requested is a state that a statement has gone over to since. -/
structure Known (m₀ m : Machine) : Prop where
  later : ∃ later, Since m₀ later m
  requested : ∀ state ∈ m.requested, Stated m₀ m state

structure Owing (m₀ m : Machine) : Prop extends Known m₀ m where
  isSome : ∀ state, Stated m₀ m state → m.requested.isSome

variable {m₀ m m' : Machine} {state : String}

theorem Stated.note (h : Stated m₀ m state) (x : Moment) : Stated m₀ (m.note x) state := by
  obtain ⟨later, hp, hs⟩ := h
  exact ⟨later ++ [x], hp.note x, List.mem_append_left _ hs⟩

theorem Stated.setStack (h : Stated m₀ m state) (s : CallStack) : Stated m₀ (m.setStack s) state :=
  (show Stated m₀ { m with stack := s } state from h).note _

theorem Stated.of_note {x : Moment} (hl : ∃ later, Since m₀ later m) (hx : x ≠ .stated state)
    (h : Stated m₀ (m.note x) state) : Stated m₀ m state := by
  obtain ⟨later, hp⟩ := hl
  obtain ⟨later', hp', hs⟩ := h
  have he := hp'.symm.trans (hp.note x)
  -- Both are about the same past, so the two lists of what came later are one.
  rw [List.append_cancel_left he, List.mem_append, List.mem_singleton] at hs
  exact ⟨later, hp, hs.resolve_right (Ne.symm hx)⟩

theorem stated_note (hl : ∃ later, Since m₀ later m) (state : String) :
    Stated m₀ (m.note (.stated state)) state := by
  obtain ⟨later, hp⟩ := hl
  exact ⟨later ++ [.stated state], hp.note _, by simp⟩

theorem Known.note (h : Known m₀ m) (x : Moment) : Known m₀ (m.note x) where
  later := h.later.imp' (· ++ [x]) fun _ hp => hp.note x
  requested state hs := (h.requested state hs).note x

theorem Owing.note {x : Moment} (h : Owing m₀ m) (hx : ∀ state, x ≠ .stated state) :
    Owing m₀ (m.note x) where
  toKnown := h.toKnown.note x
  isSome state hs := h.isSome state (hs.of_note h.later (hx state))

theorem Owing.setStack (h : Owing m₀ m) (s : CallStack) : Owing m₀ (m.setStack s) :=
  (show Owing m₀ { m with stack := s } from ⟨⟨h.later, h.requested⟩, h.isSome⟩).note (by simp)

theorem Known.setStack (h : Known m₀ m) (s : CallStack) : Known m₀ (m.setStack s) :=
  (show Known m₀ { m with stack := s } from ⟨h.later, h.requested⟩).note _

theorem Known.request (h : Known m₀ m) (hs : Stated m₀ m state) : Owing m₀ (m.request state) where
  later := h.later.imp' (· ++ [.request state]) fun _ hp => hp.note _
  requested state' hs' := by
    cases hs'
    exact hs.note (.request state)
  isSome _ _ := rfl

theorem Owing.of_none (hl : Since m₀ [] m) (hr : m.requested = none) : Owing m₀ m where
  later := ⟨[], hl⟩
  requested := by simp [hr]
  isSome := by
    rintro state ⟨later, hp, hs⟩
    cases List.append_cancel_left (hp.symm.trans hl)
    cases hs

end Machine

open Machine

/-- Where a statement ends with a state, that state was gone over to; where it does not, every state that
was gone over to is still requested. -/
def Flow.Owes (m₀ : Machine) : Flow → Machine → Prop
  | .state target, m => Known m₀ m ∧ Stated m₀ m target
  | _, m => Owing m₀ m

theorem Flow.Owes.known {m₀ m : Machine} {f : Flow} (h : f.Owes m₀ m) : Known m₀ m := by
  cases f with
  | state target => exact h.1
  | normal => exact h.toKnown
  | «break» => exact h.toKnown
  | «continue» => exact h.toKnown
  | «return» v => exact h.toKnown
  | jump label => exact h.toKnown

theorem Flow.owes_iff {m₀ m : Machine} {f : Flow} (hf : ∀ target, f ≠ .state target) :
    f.Owes m₀ m ↔ Owing m₀ m := by
  cases f with
  | state target => exact (hf target rfl).elim
  | normal => rfl
  | «break» => rfl
  | «continue» => rfl
  | «return» v => rfl
  | jump label => rfl

/-- The contract to lose no request and to make none up. -/
def Eval.Contract.owing (m₀ : Machine) : Contract where
  machine := Owing m₀
  value _ := True
  halt _ _ := True
  flow := Flow.Owes m₀
  target _ := True
  lost := True

theorem Eval.calls_owing (m₀ : Machine) : (Contract.owing m₀).ForCalls where
  closed := .all
  warn _ _ hm := ⟨⟨hm.later, hm.requested⟩, hm.isSome⟩
  slot _ _ := trivial
  declare _ _ _ hm _ := hm.setStack _
  assign hm _ _ := ⟨trivial, hm.setStack _⟩
  library _ _ detected := Meets.callLibrary
    (fun _ _ _ _ hm => ⟨⟨⟨hm.later, hm.requested⟩, hm.isSome⟩, trivial⟩) (fun _ _ _ _ => trivial) _
    _ _
  capped hm := hm.note (by simp)
  plain hf hm := (Flow.owes_iff (by rintro target rfl; exact hf)).2 hm
  result _ hm := hm
  stated _ hm := ⟨hm.toKnown.note _, stated_note hm.later _⟩
  within hf hm := (Flow.owes_iff hf).1 hm
  returned _ _ _ := trivial
  taken hm hr := ⟨⟨hm.known.later, by simp⟩, hm.known.requested _ hr⟩
  undefined _ _ := trivial
  lost _ _ _ _ := trivial
  request hm := hm.1.request hm.2
  enter _ _ _ _ hm _ := hm.setStack _
  leave {m f} hm := by
    cases f with
    | state target => exact ⟨hm.1.setStack _, hm.2.setStack _⟩
    | normal => exact Owing.setStack hm _
    | «break» => exact Owing.setStack hm _
    | «continue» => exact Owing.setStack hm _
    | «return» v => exact Owing.setStack hm _
    | jump label => exact Owing.setStack hm _
  halted _ := trivial
  tooDeep _ _ := trivial

def Machine.Outer (m : Machine) : Prop := m.stack.depth ≤ 1

structure Machine.Settled (m : Machine) : Prop where
  outer : m.Outer
  requested : m.requested = none

section Settled

variable {X : Halt → Machine → Prop}

theorem Eval.settled_takeRequest : Meets Outer (fun _ => Settled) X takeRequest := by
  intro m hm
  have hd : m.stack.depth ≤ 1 := hm
  rw [takeRequest, on_bind]
  cases hr : m.requested with
  | none => simpa [hd, hr, Ended] using Settled.mk hm hr
  | some target =>
    have hs : Settled { m with requested := none } := ⟨hm, rfl⟩
    simpa [hd, hr, Ended, on_bind, -bind_pure_comp] using hs

theorem Eval.settled_unlessRequested {next : Eval Flow}
    (hn : Meets Settled (fun _ => Settled) X next) :
    Meets Outer (fun _ => Settled) X (unlessRequested next) := by
  apply settled_takeRequest.bind
  intro r
  cases r with
  | none => exact hn
  | some target => exact Meets.pure fun _ => id

theorem Eval.settled_capped (what : String) (cap : Nat) :
    Meets Settled (fun _ => Settled) X (Flow.capped what cap) := by
  intro m hm
  exact ⟨hm.outer, hm.requested⟩

theorem Scope.outer_run (script : Script) (settings : Settings) (detected : List Entity) (n : Nat)
    (t : Stmt) (entry : Entry) :
    Meets Outer (fun _ => Outer) (fun _ _ => True)
      (t.run (ofScript script settings detected n) entry) := by
  intro m hm
  have hf := (t.ensures_run (stable_sameFrame (Nat.le_add_right m.stack.depth n))
    (keeps_sameFrame script settings detected (Nat.le_refl _)) entry m (.refl _ _)).1
  have ho : Outer ((t.run (ofScript script settings detected n) entry).on m).2 := by
    rw [Outer, hf.depth]
    exact hm
  generalize (t.run (ofScript script settings detected n) entry).on m = r at ho ⊢
  rcases r with ⟨x | f, m'⟩
  · trivial
  · exact ho

variable {s : Scope}
  (hs : ∀ (t : Stmt) entry, Meets Outer (fun _ => Outer) (fun _ _ => True) (t.run s entry))
include hs

theorem Scope.settled_block (body : List Stmt) (entry : Entry) :
    Meets Settled (fun _ => Settled) (fun _ _ => True)
      ((s.block body (Stmt.runs s body)).run entry) := by
  have hrun (i : Nat) (hi : i < (s.block body (Stmt.runs s body)).statements.size) (entry : Entry) :
      Meets Outer (fun _ => Outer) (fun _ _ => True)
        ((s.block body (Stmt.runs s body)).statements[i] entry) := by
    have ht := List.getElem?_eq_getElem (s.size_block body ▸ hi)
    rw [s.getElem_block ht]
    exact hs _ entry
  apply Block.meets_run (F := fun _ => Outer)
  · exact fun i hi => (hrun i hi none).mono (fun _ hm => hm.outer) fun _ _ => id
  · exact fun _ _ hn => settled_unlessRequested hn
  · exact fun _ hm => hm
  · exact fun _ hm => hm
  · exact settled_capped
  · exact fun _ _ _ _ => Meets.throw fun _ _ => trivial
  · exact fun i path _ hi => (hrun i hi (some path)).mono (fun _ hm => hm.outer) fun _ _ => id

theorem Scope.settled_runBody (body : List Stmt) :
    Meets Settled (fun _ => Settled) (fun _ _ => True) (s.runBody body) :=
  (s.settled_block hs body none).bind fun f => s.meets_afterJumps (fun _ _ => id)
    (fun _ => Meets.throw fun _ _ => trivial) settled_capped
    (fun _ path _ => s.settled_block hs body (some path)) _ f

theorem Handler.settled_act (h : Handler) :
    Meets Settled (fun _ => Settled) (fun _ _ => True) (h.act s) := by
  apply (s.settled_runBody hs h.body).bind
  intro flow
  have ht : Meets Settled (fun _ => Settled) (fun _ _ => True) takeRequest :=
    settled_takeRequest.mono (fun _ hm => hm.outer) fun _ _ => id
  cases flow with
  | state target => exact Meets.pure fun _ => id
  | normal => exact ht
  | «return» v => exact ht
  | «break» => exact ht
  | «continue» => exact ht
  | jump label => exact ht

end Settled

theorem Handler.settled_run (h : Handler) (script : Script) (e : Event) :
    Meets (fun m => m.stack.frames = [] ∧ m.requested = none) (fun _ m => m.requested = none)
      (fun _ _ => True) (h.run script e) := by
  rw [h.run_eq]
  have ha : Meets Settled (fun _ => Settled) (fun _ _ => True) (script.inScope e.detected h.act) := by
    intro m hm
    rw [script.on_inScope]
    exact h.settled_act (Scope.outer_run _ _ _ _) m hm
  refine ha.withFrame (fun m hm => ⟨?_, hm.2⟩) (fun _ _ hm => hm.requested) fun _ _ _ => trivial
  change m.stack.frames.length + 1 ≤ 1
  simp [hm.1]

end PrimScript
