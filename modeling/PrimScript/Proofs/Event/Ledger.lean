import Mathlib.Data.List.Nodup
import PrimScript.Event.Queue

/-! Ledgers: what the history of a queue says of each of its events.  The events are numbered in the
order they were accepted in, so that equal ones can be told apart. -/

namespace PrimScript

structure Ledger where
  /-- The number of the next event. -/
  next : Nat
  high : List (Nat × Event)
  normal : List (Nat × Event)
  popped : List (Nat × Event)

namespace Ledger

def empty : Ledger := ⟨0, [], [], []⟩

def enter (l : Ledger) : QueueChange → Ledger
  | .accepted e =>
    if e.high then { l with next := l.next + 1, high := l.high ++ [(l.next, e)] }
    else { l with next := l.next + 1, normal := l.normal ++ [(l.next, e)] }
  | .popped =>
    match l.high, l.normal with
    | x :: rest, _ => { l with high := rest, popped := l.popped ++ [x] }
    | [], x :: rest => { l with normal := rest, popped := l.popped ++ [x] }
    | [], [] => l
  | .cleared => { l with high := [], normal := [] }
  | .closed => { l with high := [], normal := [] }
  | .withdrawn kind =>
    { l with
      high := l.high.filter (·.2.kind ≠ kind)
      normal := l.normal.filter (·.2.kind ≠ kind) }

def replay (l : Ledger) (cs : List QueueChange) : Ledger := cs.foldl enter l

theorem replay_append (l : Ledger) (cs ds : List QueueChange) :
    l.replay (cs ++ ds) = (l.replay cs).replay ds := List.foldl_append

@[simp] theorem replay_nil (l : Ledger) : l.replay [] = l := rfl

@[simp] theorem replay_cons (l : Ledger) (c : QueueChange) (cs : List QueueChange) :
    l.replay (c :: cs) = (l.enter c).replay cs := rfl

def pending (l : Ledger) : List (Nat × Event) := l.high ++ l.normal

theorem pending_accepted (l : Ledger) (e : Event) :
    (l.enter (.accepted e)).pending.Perm ((l.next, e) :: l.pending) := by
  rw [enter]
  split
  · simp only [pending, List.append_assoc, List.singleton_append]
    exact List.perm_middle
  · simp only [pending, ← List.append_assoc]
    exact List.perm_append_singleton _ _

theorem pending_sublist (l : Ledger) {c : QueueChange} (hc : ∀ e, c ≠ .accepted e) :
    (l.enter c).pending.Sublist l.pending := by
  cases c with
  | accepted e => exact absurd rfl (hc e)
  | popped =>
    obtain ⟨next, high, normal, popped⟩ := l
    cases high with
    | cons x rest => exact List.sublist_cons_self _ _
    | nil =>
      cases normal with
      | cons x rest => exact List.sublist_cons_self _ _
      | nil => exact .refl _
  | cleared => exact List.nil_sublist _
  | closed => exact List.nil_sublist _
  | withdrawn kind => exact List.Sublist.append List.filter_sublist List.filter_sublist

structure Distinct (l : Ledger) : Prop where
  lt : ∀ x ∈ l.pending ++ l.popped, x.1 < l.next
  nodup : ((l.pending ++ l.popped).map (·.1)).Nodup

theorem distinct_empty : empty.Distinct := ⟨by simp [empty, pending], by simp [empty, pending]⟩

theorem Distinct.of_sublist {l l' : Ledger} (h : l.Distinct) (hn : l'.next = l.next)
    {xs : List (Nat × Event)} (hp : (l'.pending ++ l'.popped).Perm xs)
    (hs : xs.Sublist (l.pending ++ l.popped)) : l'.Distinct where
  lt x hx := hn ▸ h.lt x (hs.subset (hp.subset hx))
  nodup := (hp.map _).nodup_iff.2 (h.nodup.sublist (hs.map _))

theorem Distinct.accepted {l l' : Ledger} (h : l.Distinct) {e : Event}
    (hn : l'.next = l.next + 1)
    (hp : (l'.pending ++ l'.popped).Perm ((l.next, e) :: (l.pending ++ l.popped))) :
    l'.Distinct where
  lt x hx := by
    rw [hn]
    rcases List.mem_cons.1 (hp.subset hx) with rfl | hx
    · exact Nat.lt_succ_self _
    · exact Nat.lt_succ_of_lt (h.lt x hx)
  nodup := by
    rw [(hp.map _).nodup_iff, List.map_cons, List.nodup_cons]
    refine ⟨?_, h.nodup⟩
    intro hm
    obtain ⟨x, hx, hxn⟩ := List.mem_map.1 hm
    exact absurd hxn (Nat.ne_of_lt (h.lt x hx))

theorem Distinct.enter {l : Ledger} (h : l.Distinct) (c : QueueChange) : (l.enter c).Distinct := by
  cases c with
  | accepted e =>
    rw [Ledger.enter]
    split
    · apply h.accepted rfl
      simp only [pending, List.append_assoc, List.singleton_append]
      exact List.perm_middle
    · apply h.accepted rfl
      simp only [pending, List.append_assoc, List.singleton_append]
      rw [← List.append_assoc, ← List.append_assoc]
      exact List.perm_middle
  | popped =>
    obtain ⟨next, high, normal, popped⟩ := l
    cases high with
    | cons x rest =>
      refine h.of_sublist rfl ?_ (.refl _)
      simp only [pending, Ledger.enter, List.cons_append, ← List.append_assoc]
      exact List.perm_append_singleton x _
    | nil =>
      cases normal with
      | cons x rest =>
        refine h.of_sublist rfl ?_ (.refl _)
        simp only [pending, Ledger.enter, List.nil_append, List.cons_append, ← List.append_assoc]
        exact List.perm_append_singleton x _
      | nil => exact h
  | cleared => exact h.of_sublist rfl (.refl _) (List.sublist_append_right _ _)
  | closed => exact h.of_sublist rfl (.refl _) (List.sublist_append_right _ _)
  | withdrawn kind =>
    refine h.of_sublist rfl (.refl _) (List.Sublist.append ?_ (.refl _))
    exact List.Sublist.append List.filter_sublist List.filter_sublist

theorem Distinct.replay {l : Ledger} (h : l.Distinct) (cs : List QueueChange) :
    (l.replay cs).Distinct := by
  induction cs generalizing l with
  | nil => exact h
  | cons c cs ih => exact ih (h.enter c)

/-- Since the number `n` was next, only events from it on have become pending and been popped. -/
structure Since (n : Nat) (old : List (Nat × Event)) (l : Ledger) : Prop where
  next : n ≤ l.next
  pending : ∀ x ∈ l.pending, n ≤ x.1
  popped : ∀ x ∈ l.popped, x ∈ old ∨ n ≤ x.1

theorem Since.enter {n : Nat} {old : List (Nat × Event)} {l : Ledger} (h : Since n old l)
    (c : QueueChange) : Since n old (l.enter c) := by
  cases c with
  | accepted e =>
    have hp {l' : Ledger} (hl : l'.pending ⊆ (l.next, e) :: l.pending) : ∀ x ∈ l'.pending, n ≤ x.1 := by
      intro x hx
      rcases List.mem_cons.1 (hl hx) with rfl | hx
      · exact h.next
      · exact h.pending x hx
    rw [Ledger.enter]
    split
    · refine ⟨Nat.le_succ_of_le h.next, hp ?_, h.popped⟩
      simp [Ledger.pending]
    · refine ⟨Nat.le_succ_of_le h.next, hp ?_, h.popped⟩
      simp [Ledger.pending, ← List.append_assoc]
  | popped =>
    have hx : ∀ x ∈ l.pending, ∀ y ∈ l.popped ++ [x], y ∈ old ∨ n ≤ y.1 := by
      intro x hx y hy
      rcases List.mem_append.1 hy with hy | hy
      · exact h.popped y hy
      · cases List.mem_singleton.1 hy
        exact .inr (h.pending x hx)
    obtain ⟨next, high, normal, popped⟩ := l
    cases high with
    | cons x rest =>
      exact ⟨h.next, fun y hy => h.pending y (List.mem_cons_of_mem _ hy), hx x List.mem_cons_self⟩
    | nil =>
      cases normal with
      | cons x rest =>
        exact ⟨h.next, fun y hy => h.pending y (List.mem_cons_of_mem _ hy), hx x List.mem_cons_self⟩
      | nil => exact h
  | cleared => exact ⟨h.next, by simp [Ledger.enter, Ledger.pending], h.popped⟩
  | closed => exact ⟨h.next, by simp [Ledger.enter, Ledger.pending], h.popped⟩
  | withdrawn kind =>
    refine ⟨h.next, fun x hx => h.pending x ?_, h.popped⟩
    simp only [Ledger.enter, Ledger.pending, List.mem_append, List.mem_filter] at hx ⊢
    exact hx.imp And.left And.left

theorem Since.replay {n : Nat} {old : List (Nat × Event)} {l : Ledger} (h : Since n old l)
    (cs : List QueueChange) : Since n old (l.replay cs) := by
  induction cs generalizing l with
  | nil => exact h
  | cons c cs ih => exact ih (h.enter c)

theorem popped_prefix_enter (l : Ledger) (c : QueueChange) : l.popped <+: (l.enter c).popped := by
  cases c with
  | accepted e =>
    rw [enter]
    split <;> exact List.prefix_rfl
  | popped =>
    obtain ⟨next, high, normal, popped⟩ := l
    cases high with
    | cons x rest => exact List.prefix_append _ _
    | nil =>
      cases normal with
      | cons x rest => exact List.prefix_append _ _
      | nil => exact List.prefix_rfl
  | cleared => exact List.prefix_rfl
  | closed => exact List.prefix_rfl
  | withdrawn kind => exact List.prefix_rfl

theorem popped_prefix_replay (l : Ledger) (cs : List QueueChange) :
    l.popped <+: (l.replay cs).popped := by
  induction cs generalizing l with
  | nil => exact List.prefix_rfl
  | cons c cs ih => exact (popped_prefix_enter l c).trans (ih _)

theorem Distinct.not_popped {l : Ledger} (h : l.Distinct) (cs : List QueueChange)
    {x : Nat × Event} (hx : x ∈ l.pending) :
    x.1 ∉ ((l.enter .cleared).replay cs).popped.map (·.1) := by
  have hs : Since l.next l.popped (l.enter .cleared) :=
    ⟨Nat.le_refl _, by simp [Ledger.enter, Ledger.pending], fun y hy => .inl hy⟩
  intro hm
  obtain ⟨y, hy, hyx⟩ := List.mem_map.1 hm
  rcases (hs.replay cs).popped y hy with hold | hnew
  · have hn := h.nodup
    rw [List.map_append, List.nodup_append] at hn
    exact hn.2.2 x.1 (List.mem_map_of_mem hx) y.1 (List.mem_map_of_mem hold) hyx.symm
  · have hlt := h.lt x (List.mem_append_left _ hx)
    rw [← hyx] at hlt
    exact absurd hnew (Nat.not_le.2 hlt)

end Ledger

namespace EventQueue

noncomputable def ledger (q : EventQueue) : Ledger := Ledger.empty.replay q.past.toList

theorem distinct_ledger (q : EventQueue) : q.ledger.Distinct := Ledger.distinct_empty.replay _

theorem ledger_of_past {q q' : EventQueue} {cs : List QueueChange}
    (h : q'.past.toList = q.past.toList ++ cs) : q'.ledger = q.ledger.replay cs := by
  rw [ledger, h, Ledger.replay_append]
  rfl

/-- The queue holds what its ledger says, and nothing once it is closed. -/
structure Accounted (q : EventQueue) : Prop where
  high : q.ledger.high.map (·.2) = q.high
  normal : q.ledger.normal.map (·.2) = q.normal
  closed : q.closed → q.high = [] ∧ q.normal = []

theorem accounted_empty (capacity : Nat) : (empty capacity).Accounted := by
  have h : (empty capacity).ledger = .empty := by simp [ledger, empty]
  refine ⟨?_, ?_, fun _ => ⟨rfl, rfl⟩⟩
  · rw [h]; rfl
  · rw [h]; rfl

theorem ledger_of_push {q q' : EventQueue} {c : QueueChange} (h : q'.past = q.past.push c) :
    q'.ledger = q.ledger.enter c := by
  have hp : q'.past.toList = q.past.toList ++ [c] := by rw [h, History.toList_push]
  exact ledger_of_past hp

theorem past_of_receive {q q' : EventQueue} {e : Event} (h : q.receive e = .ok q') :
    q'.past = q.past.push (.accepted e) := by
  unfold receive at h
  split at h
  · cases h
  · split at h
    · cases h
      rfl
    · split at h
      · cases h
      · cases h
        rfl

theorem Accounted.receive {q q' : EventQueue} (h : q.Accounted) {e : Event}
    (hq : q.receive e = .ok q') : q'.Accounted := by
  have hl : q'.ledger = q.ledger.enter (.accepted e) :=
    ledger_of_push (past_of_receive hq)
  unfold EventQueue.receive at hq
  split at hq
  · cases hq
  · next hc =>
    split at hq
    · next he =>
      cases hq
      refine ⟨?_, ?_, fun h => absurd h hc⟩ <;> rw [hl]
      · simp [Ledger.enter, he, h.high]
      · simp [Ledger.enter, he, h.normal]
    · next he =>
      split at hq
      · cases hq
      · cases hq
        refine ⟨?_, ?_, fun h => absurd h hc⟩ <;> rw [hl]
        · simp [Ledger.enter, he, h.high]
        · simp [Ledger.enter, he, h.normal]

theorem past_of_pop? {q q' : EventQueue} {e : Event} (h : q.pop? = some (e, q')) :
    q'.past = q.past.push .popped := by
  unfold pop? at h
  split at h
  · cases h
    rfl
  · cases h
    rfl
  · cases h

theorem Accounted.ledger_of_pop? {q q' : EventQueue} (h : q.Accounted) {e : Event}
    (hq : q.pop? = some (e, q')) :
    ∃ n, q.ledger.pending.head? = some (n, e) ∧
      q'.ledger.popped = q.ledger.popped ++ [(n, e)] := by
  rw [ledger_of_push (past_of_pop? hq), Ledger.pending]
  unfold pop? at hq
  rw [← h.high, ← h.normal] at hq
  revert hq
  generalize q.ledger = l
  obtain ⟨next, high, normal, popped⟩ := l
  intro hq
  cases high with
  | cons x rest =>
    cases hq
    exact ⟨x.1, rfl, rfl⟩
  | nil =>
    cases normal with
    | cons x rest =>
      cases hq
      exact ⟨x.1, rfl, rfl⟩
    | nil => cases hq

theorem Accounted.pop {q q' : EventQueue} (h : q.Accounted) {e : Event}
    (hq : q.pop? = some (e, q')) : q'.Accounted := by
  have hl : q'.ledger = q.ledger.enter .popped := ledger_of_push (past_of_pop? hq)
  have hh := h.high
  have hn := h.normal
  unfold pop? at hq
  split at hq
  · next rest heq =>
    cases hq
    obtain ⟨x, xs, hx, -, rfl⟩ := List.map_eq_cons_iff.1 (hh.trans heq)
    refine ⟨?_, ?_, fun hc => absurd (h.closed hc).1 (by simp [heq])⟩ <;> rw [hl]
    · simp [Ledger.enter, hx]
    · simp [Ledger.enter, hx, hn]
  · next rest heq heq' =>
    cases hq
    obtain ⟨x, xs, hx, -, rfl⟩ := List.map_eq_cons_iff.1 (hn.trans heq')
    have hx' := List.map_eq_nil_iff.1 (hh.trans heq)
    refine ⟨?_, ?_, fun hc => absurd (h.closed hc).2 (by simp [heq'])⟩ <;> rw [hl]
    · simp [Ledger.enter, hx, hx', heq]
    · simp [Ledger.enter, hx, hx']
  · cases hq

theorem accounted_nextEpoch (q : EventQueue) : q.nextEpoch.Accounted := by
  have hl : q.nextEpoch.ledger = q.ledger.enter .cleared := ledger_of_push rfl
  refine ⟨?_, ?_, fun _ => ⟨rfl, rfl⟩⟩ <;> rw [hl] <;> rfl

theorem accounted_close (q : EventQueue) : q.close.Accounted := by
  have hl : q.close.ledger = q.ledger.enter .closed := ledger_of_push rfl
  refine ⟨?_, ?_, fun _ => ⟨rfl, rfl⟩⟩ <;> rw [hl] <;> rfl

theorem Accounted.erase {q : EventQueue} (h : q.Accounted) (kind : EventKind) :
    (q.erase kind).Accounted := by
  have hl : (q.erase kind).ledger = q.ledger.enter (.withdrawn kind) := ledger_of_push rfl
  refine ⟨?_, ?_, fun hc => ?_⟩
  · rw [hl, Ledger.enter, EventQueue.erase, ← h.high, List.filter_map]
    rfl
  · rw [hl, Ledger.enter, EventQueue.erase, ← h.normal, List.filter_map]
    rfl
  · obtain ⟨hh, hn⟩ := h.closed hc
    simp [EventQueue.erase, hh, hn]

theorem Accounted.map_pending {q : EventQueue} (h : q.Accounted) : q.ledger.pending.map (·.2) = q.toList := by
  rw [Ledger.pending, List.map_append, h.high, h.normal, toList]

theorem Accounted.refuse {q : EventQueue} (h : q.Accounted) (e : Event) (x : EventError) :
    (q.refuse e x).Accounted := ⟨h.high, h.normal, h.closed⟩

theorem Accounted.push {q : EventQueue} (h : q.Accounted) (e : Event) : (q.push e).2.Accounted := by
  rcases q.push_cases e with ⟨q', hq, hp⟩ | ⟨x, -, hp⟩
  · rw [hp]
    exact h.receive hq
  · rw [hp]
    exact h.refuse e x

theorem snd_serve_push (q : EventQueue) (e : Event) : (q.serve (.push e)).2 = (q.push e).2 := by
  rcases q.push_cases e with ⟨q', -, hp⟩ | ⟨x, -, hp⟩ <;> simp [serve, hp, serve.answerPush]

theorem snd_serve_pushIn (q : EventQueue) (epoch : Nat) (e : Event) :
    (q.serve (.pushIn epoch e)).2 = (q.push e).2 ∨
      (q.serve (.pushIn epoch e)).2 = q.refuse e (.stale e.kind epoch) := by
  rcases q.pushIn_cases epoch e with ⟨-, hp⟩ | ⟨-, hp⟩
  · refine .inl (Eq.trans ?_ (q.snd_serve_push e))
    simp only [serve, hp]
  · exact .inr (by simp only [serve, hp, serve.answerPush])

theorem past_serve (q : EventQueue) (r : QueueRequest) :
    (q.serve r).2.past = q.past ∨ ∃ c, (q.serve r).2.past = q.past.push c ∧
      ∀ e, c = .accepted e → r = .push e ∨ ∃ k, r = .pushIn k e := by
  have hpush (e : Event) : (q.push e).2.past = q.past ∨ (q.push e).2.past = q.past.push (.accepted e) := by
    rcases q.push_cases e with ⟨q', hq, hp⟩ | ⟨x, -, hp⟩
    · rw [hp]
      exact .inr (past_of_receive hq)
    · rw [hp]
      exact .inl rfl
  cases r with
  | push e =>
    rw [snd_serve_push]
    refine (hpush e).imp id fun h => ⟨_, h, ?_⟩
    rintro _ ⟨⟩
    exact .inl rfl
  | pushIn epoch e =>
    rcases q.snd_serve_pushIn epoch e with h | h
    · rw [h]
      refine (hpush e).imp id fun h => ⟨_, h, ?_⟩
      rintro _ ⟨⟩
      exact .inr ⟨epoch, rfl⟩
    · rw [h]
      exact .inl rfl
  | pop =>
    rw [serve]
    cases hq : q.pop? with
    | some x => exact .inr ⟨_, past_of_pop? hq, nofun⟩
    | none => exact .inl rfl
  | clear => exact .inr ⟨_, rfl, nofun⟩
  | close => exact .inr ⟨_, rfl, nofun⟩
  | withdraw kind => exact .inr ⟨_, rfl, nofun⟩
  | contains kind => exact .inl rfl

theorem Accounted.serve {q : EventQueue} (h : q.Accounted) (r : QueueRequest) : (q.serve r).2.Accounted := by
  cases r with
  | push e => exact q.snd_serve_push e ▸ h.push e
  | pushIn epoch e =>
    rcases q.snd_serve_pushIn epoch e with hs | hs
    · exact hs ▸ h.push e
    · exact hs ▸ h.refuse _ _
  | pop =>
    rw [EventQueue.serve]
    cases hq : q.pop? with
    | some x => exact h.pop hq
    | none => exact h
  | clear => exact accounted_nextEpoch q
  | close => exact accounted_close q
  | withdraw kind => exact h.erase kind
  | contains kind => exact h

noncomputable def accepted (q : EventQueue) : List Event :=
  q.past.toList.filterMap fun
    | .accepted e => some e
    | _ => none

theorem accepted_of_receive {q q' : EventQueue} {e : Event} (h : q.receive e = .ok q') :
    q'.accepted = q.accepted ++ [e] := by
  simp [accepted, past_of_receive h]

theorem accepted_of_past {q q' : EventQueue} {c : QueueChange} (h : q'.past = q.past.push c)
    (hc : ∀ e, c ≠ .accepted e) : q'.accepted = q.accepted := by
  cases c with
  | accepted e => exact absurd rfl (hc e)
  | _ => simp [accepted, h]

theorem accepted_of_pop? {q q' : EventQueue} {e : Event} (h : q.pop? = some (e, q')) :
    q'.accepted = q.accepted := accepted_of_past (past_of_pop? h) (by simp)

@[simp] theorem accepted_empty (capacity : Nat) : (empty capacity).accepted = [] := by
  simp [accepted, empty]

@[simp] theorem accepted_nextEpoch (q : EventQueue) : q.nextEpoch.accepted = q.accepted :=
  accepted_of_past rfl (by simp)

@[simp] theorem accepted_close (q : EventQueue) : q.close.accepted = q.accepted :=
  accepted_of_past rfl (by simp)

@[simp] theorem accepted_erase (q : EventQueue) (kind : EventKind) :
    (q.erase kind).accepted = q.accepted := accepted_of_past rfl (by simp)

end EventQueue

end PrimScript
