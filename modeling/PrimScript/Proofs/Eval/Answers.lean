import PrimScript.Proofs.Eval.Stable
import PrimScript.Proofs.Library.Answers

/-! The calls that a script has made, and the answers that are owed to it.  Keys tell the answers apart:
every call that asks finds more fresh keys given out than the ones before it. -/

namespace PrimScript

open Library World

variable {P : Event → Prop} {b : World.Basis} {rs : List Called} {w w' : World}

/-- What is owed to the calls of the library made so far is what the world still owes or has given. -/
structure World.Answers (P : Event → Prop) (b : World.Basis) (rs : List Called) (w : World) : Prop where
  owes : ∃ k, w.Owes P b k (rs.filterMap Called.answer?) ∧
    ∀ r ∈ rs, r.call.name ∈ askingNames → r.world.keysGiven < k
  around : ∀ r ∈ rs, r.world.around = b.around
  heard : ∀ r ∈ rs, r.call.name ∈ askingNames → r.Heard
  later : rs.Pairwise fun r r' =>
    r.call.name ∈ askingNames → r.world.keysGiven < r'.world.keysGiven

theorem forall₂_filterMap {α β : Type} {R : α → β → Prop} {p : α → Bool} {f : α → Option β} {l : List α}
    (h : ∀ x ∈ l, (∃ y, p x = true ∧ f x = some y ∧ R x y) ∨ (p x = false ∧ f x = none)) :
    List.Forall₂ R (l.filter p) (l.filterMap f) := by
  induction l with
  | nil => exact .nil
  | cons x l ih =>
    rw [List.forall_mem_cons] at h
    rcases h.1 with ⟨y, hp, hf, hr⟩ | ⟨hp, hf⟩
    · rw [List.filter_cons_of_pos hp, List.filterMap_cons_some hf]
      exact .cons hr (ih h.2)
    · rw [List.filter_cons_of_neg (by simp [hp]), List.filterMap_cons_none hf]
      exact ih h.2

namespace World.Answers

theorem basis (h : w.Answers P b rs) : w.basis = b := by
  obtain ⟨k, hw, -⟩ := h.owes
  exact hw.basis

theorem keeps (h : w.Answers P b rs) (hk : Keeps P w w') : w'.Answers P b rs := by
  obtain ⟨k, hw, hlt⟩ := h.owes
  exact ⟨⟨k, hk hw, hlt⟩, h.around, h.heard, h.later⟩

theorem startLoop (h : w.Answers P b rs) :
    World.Answers P { b with looping := true } rs { w with looping := true } := by
  obtain ⟨k, hw, hlt⟩ := h.owes
  exact ⟨⟨k, hw.startLoop, hlt⟩, h.around, h.heard, h.later⟩

theorem endLoop (h : w.Answers P b rs) : w.endLoop.Answers P w.endLoop.basis rs := by
  obtain ⟨k, hw, hlt⟩ := h.owes
  have hb : w.around = b.around := congrArg Basis.around hw.basis
  exact ⟨⟨k, hw.endLoop, hlt⟩, fun r hr => (h.around r hr).trans hb.symm, h.heard, h.later⟩

theorem call (h : w.Answers P b rs) {f : LibraryFunction} (hf : f ∈ all) {c : Call} (hn : c.name = f.name) :
    (f.run c w).2.Answers P b (rs ++ [⟨w, c, (f.run c w).1⟩]) := by
  obtain ⟨k, hw, hlt⟩ := h.owes
  refine ⟨?_, ?_, ?_, ?_⟩
  · obtain ⟨k', hk, hc, hw'⟩ := owes_of_mem hf hn hw
    refine ⟨k', ?_, ?_⟩
    · rw [List.filterMap_append]
      cases ha : (Called.mk w c (f.run c w).1).answer? with
      | none => simpa [ha] using hw'
      | some a => simpa [ha] using hw'
    · simp only [List.forall_mem_append, List.forall_mem_singleton]
      exact ⟨fun r hr hra => Nat.lt_of_lt_of_le (hlt r hr hra) hk, hc⟩
  · simp only [List.forall_mem_append, List.forall_mem_singleton]
    exact ⟨h.around, congrArg Basis.around hw.basis⟩
  · simp only [List.forall_mem_append, List.forall_mem_singleton]
    exact ⟨h.heard, heard_of_mem hf hn hw⟩
  · refine List.pairwise_append.2 ⟨h.later, List.pairwise_singleton _ _, fun r hr r' hr' hra => ?_⟩
    cases List.mem_singleton.1 hr'
    exact Nat.lt_of_lt_of_le (hlt r hr hra) hw.given

theorem key?_of_answer? (h : w.Answers P b rs) {r : Called} (hr : r ∈ rs) {a : Answer}
    (ha : r.answer? = some a) :
    r.call.name ∈ askingNames ∧ a.key? = some (r.world.around.keys.key r.world.keysGiven) := by
  have hname : r.call.name ∈ askingNames := by
    by_contra hn
    rw [answer?_of_name hn] at ha
    cases ha
  refine ⟨hname, ?_⟩
  obtain ⟨id, hk, ha⟩ := Option.bind_eq_some_iff.1 ha
  obtain ⟨⟨kind, args⟩, -, rfl⟩ := Option.map_eq_some_iff.1 ha
  rcases h.heard r hr hname with ⟨-, hid, -⟩ | ⟨-, -, hid, -⟩
  · rw [hk] at hid
    exact hid
  · rw [hk] at hid
    cases hid

theorem filter_key? (h : w.Answers P b rs)
    (hd : ∀ i < w.keysGiven, ∀ j < w.keysGiven,
      w.around.keys.key i = w.around.keys.key j → i = j) {r : Called}
    (hr : r ∈ rs) {id : String} (hk : r.key? = some id) {a : Answer} (ha : r.answer? = some a) :
    (rs.filterMap Called.answer?).filter (·.key? = some id) = [a] := by
  obtain ⟨k, hw, hlt⟩ := h.owes
  have hb : w.around = b.around := congrArg Basis.around hw.basis
  have hkeys (r : Called) (hr : r ∈ rs) : r.world.around.keys = w.around.keys := by
    rw [h.around r hr, hb]
  have hlt (r : Called) (hr : r ∈ rs) (hra : r.call.name ∈ askingNames) :
      r.world.keysGiven < w.keysGiven := Nat.lt_of_lt_of_le (hlt r hr hra) hw.given
  obtain ⟨hra, hak⟩ := h.key?_of_answer? hr ha
  rw [hkeys r hr] at hak
  obtain rfl : id = w.around.keys.key r.world.keysGiven := by
    rcases h.heard r hr hra with ⟨-, hid, -⟩ | ⟨-, -, hid, -⟩
    · rw [hkeys r hr] at hid
      exact Option.some.inj (hk.symm.trans hid)
    · rw [hk] at hid
      cases hid
  have none_of_ne (ss : List Called) (hs : ss ⊆ rs)
      (hne : ∀ r' ∈ ss, r'.call.name ∈ askingNames → r'.world.keysGiven ≠ r.world.keysGiven) :
      (ss.filterMap Called.answer?).filter (·.key? = some (w.around.keys.key r.world.keysGiven)) = [] := by
    refine List.filter_eq_nil_iff.2 fun a' ha' heq => ?_
    obtain ⟨r', hr', ha'⟩ := List.mem_filterMap.1 ha'
    obtain ⟨hra', hak'⟩ := h.key?_of_answer? (hs hr') ha'
    rw [hak', hkeys r' (hs hr'), decide_eq_true_eq, Option.some.injEq] at heq
    exact hne r' hr' hra' (hd _ (hlt r' (hs hr') hra') _ (hlt r hr hra) heq)
  obtain ⟨before, after, rfl⟩ := List.append_of_mem hr
  obtain ⟨-, hafter, hbefore⟩ := List.pairwise_append.1 h.later
  have h₁ := none_of_ne before (by simp) fun r' hr' hra' =>
    Nat.ne_of_lt (hbefore r' hr' r (by simp) hra')
  have h₂ := none_of_ne after (by simp) fun r' hr' _ =>
    Nat.ne_of_gt ((List.pairwise_cons.1 hafter).1 r' hr' hra)
  rw [List.filterMap_append, List.filterMap_cons_some ha, List.filter_append, h₁, List.filter_cons,
    h₂, hak]
  simp

theorem forall₂_answered (h : w.Answers P b rs) : List.Forall₂ Called.Answered
    (rs.filter fun r => r.call.name ∈ askingNames ∧ r.key?.isSome) (rs.filterMap Called.answer?) := by
  refine forall₂_filterMap fun r hr => ?_
  by_cases hra : r.call.name ∈ askingNames
  · rcases h.heard r hr hra with ⟨a, hk, ha⟩ | ⟨-, -, hk, -⟩
    · exact .inl ⟨a, by simp [hra, hk], ha, Called.answer?_eq_some_iff.1 ha⟩
    · exact .inr ⟨by simp [hk], by simp [Called.answer?, hk]⟩
  · exact .inr ⟨by simp [hra], answer?_of_name hra⟩

end World.Answers

namespace Eval

theorem keeps_worldAfter (f : LibraryFunction) (r : Reply × World) : Keeps P r.2 (worldAfter f r) := by
  obtain ⟨reply, w⟩ := r
  cases reply with
  | value v => exact fun _ _ _ h => h
  | pause span => exact fun _ _ _ h => h.pause span
  | invalid reason => exact fun _ _ _ h => h.alike (.report w rfl _)
  | failed reason => exact fun _ _ _ h => h.alike (.report w rfl _)
  | overlong => exact fun _ _ _ h => h

theorem answers_callLibrary {f : LibraryFunction} (hf : f ∈ all) (args : List Value)
    (detected : List Entity) {m : Machine} (hm : m.world.Answers P b m.called.toList) :
    ((callLibrary f args detected).on m).2.world.Answers P b
      ((callLibrary f args detected).on m).2.called.toList := by
  have hr := (hm.keeps fun _ _ _ h => h.meanwhile).call hf (c := ⟨f.name, args, detected⟩) rfl
  rw [on_callLibrary_snd, Machine.afterCall, History.toList_push]
  exact hr.keeps (keeps_worldAfter f _)

theorem framed_answers (P : Event → Prop) (b : Basis) :
    Framed (fun m => m.world.Answers P b m.called.toList) fun _ => True where
  closed := .all
  warn _ hk hm := hm.keeps fun _ _ _ h => h.alike (.report _ hk _)
  stated _ hm := hm
  capped hm := hm
  taken hm := hm
  slot _ _ := trivial
  declare _ _ _ hm _ := hm
  assign hm _ _ := ⟨trivial, hm⟩
  library hf _ _ := fun _ hm => ⟨answers_callLibrary hf _ _ hm, fun _ _ => trivial⟩
  request _ hm := hm
  enter _ _ _ _ hm _ := hm
  leave hm := hm

end Eval

namespace Machine

theorem answers_handle (script : Script) (h : Handler) (e : Event) {m : Machine}
    (hm : m.world.Answers P b m.called.toList) :
    (m.handle script h e).2.world.Answers P b (m.handle script h e).2.called.toList :=
  ((Eval.framed_answers P b).handle script h (fun _ _ => trivial) { m with requested := none } hm).1

theorem answers_bindGlobals (script : Script) {m : Machine} (hm : m.world.Answers P b m.called.toList) :
    (m.bindGlobals script).2.world.Answers P b (m.bindGlobals script).2.called.toList :=
  ((Eval.framed_answers P b).bindGlobals script _ { m with requested := none } hm).1

end Machine

end PrimScript
