import Mathlib.Data.List.Induction
import PrimScript.Proofs.Event.Serve

/-! Accounts: what becomes of the events a queue accepts, whoever asks for what and in which order.  An
event is known by the number of the request that brought it.  The queue is two lines, in each of which the
events stand as they came; a pop takes the first event of the high line, or of the other when that one is
empty, and every event leaves the queue with one request at most. -/

namespace PrimScript

namespace EventQueue

section Run

variable (capacity : Nat) (rs : List QueueRequest) (left : Nat → Option Nat)

def before (j : Nat) : EventQueue := (empty capacity).after (rs.take j)

def answer? (j : Nat) : Option QueueAnswer :=
  rs[j]?.map fun r => ((before capacity rs j).serve r).1

def entered? (i : Nat) : Option Event :=
  rs[i]?.bind fun r => r.entering? ((before capacity rs i).serve r).1

/-- The events of a priority that have been accepted before the request with the number `j` and have not
left by then, as they came, where `left` gives the request that an event leaves with. -/
def line (high : Bool) (j : Nat) : List (Nat × Event) :=
  (List.range j).filterMap fun i =>
    (entered? capacity rs i).bind fun e =>
      if e.high = high ∧ (left i).all (j ≤ ·) then some (i, e) else none

def waiting (j : Nat) : List (Nat × Event) :=
  line capacity rs left true j ++ line capacity rs left false j

/-- What a push comes to that is not of an earlier epoch. -/
def verdict (e : Event) (j : Nat) : QueueAnswer :=
  if (rs.take j).any QueueRequest.isClose then .refused .closed
  else if e.high = false ∧ (line capacity rs left false j).length = capacity then
    .refused (.full e.kind capacity)
  else .accepted

def discarded (j : Nat) : Nat := (List.range j).countP fun i => left i = some j

/-- What becomes of every event that a new queue accepts in the course of the requests. -/
structure Account : Prop where
  /-- The queue is two lines of events. -/
  lines : ∀ j ≤ rs.length,
    (before capacity rs j).high = (line capacity rs left true j).map (·.2) ∧
      (before capacity rs j).normal = (line capacity rs left false j).map (·.2)
  room : ∀ j ≤ rs.length, (line capacity rs left false j).length ≤ capacity
  epoch : ∀ j ≤ rs.length, (before capacity rs j).epoch = (rs.take j).countP QueueRequest.isClear
  closed : ∀ j ≤ rs.length, (before capacity rs j).closed = (rs.take j).any QueueRequest.isClose ∧
    ((rs.take j).any QueueRequest.isClose → waiting capacity rs left j = [])
  /-- A request takes what it takes of the events waiting, and nothing else makes an event leave. -/
  leaves : ∀ i j, left i = some j ↔
    ∃ r, rs[j]? = some r ∧ i ∈ (r.takes (waiting capacity rs left j)).map (·.1)
  /-- An accepted event is still waiting in the end, or it has left, with a later request, and either was
  popped or was discarded by one that discards events of its kind. -/
  fates : ∀ i e, entered? capacity rs i = some e →
    (left i = none ∧ (i, e) ∈ waiting capacity rs left rs.length) ∨
      ∃ j r, left i = some j ∧ i < j ∧ rs[j]? = some r ∧
        (r = .pop ∧ answer? capacity rs j = some (.popped (some e)) ∨
          r = .clear ∨ r = .close ∨ r = .withdraw e.kind)
  /-- What is popped is one accepted event. -/
  popped : ∀ j e, answer? capacity rs j = some (.popped (some e)) →
    ∃ i, entered? capacity rs i = some e ∧ ∀ k, left k = some j ↔ k = i
  /-- The event popped is the first one waiting. -/
  pop : ∀ j, rs[j]? = some .pop →
    answer? capacity rs j = some (.popped ((waiting capacity rs left j).head?.map (·.2)))
  clear : ∀ j, rs[j]? = some .clear → answer? capacity rs j = some (.dropped (discarded left j))
  withdraw : ∀ j kind, rs[j]? = some (.withdraw kind) →
    answer? capacity rs j = some (.dropped (discarded left j))
  contains : ∀ j kind, rs[j]? = some (.contains kind) →
    answer? capacity rs j = some (.found ((waiting capacity rs left j).any (·.2.kind = kind)))
  push : ∀ j e, rs[j]? = some (.push e) → answer? capacity rs j = some (verdict capacity rs left e j)
  pushIn : ∀ j epoch e, rs[j]? = some (.pushIn epoch e) →
    answer? capacity rs j =
      if (rs.take j).countP QueueRequest.isClear = epoch then some (verdict capacity rs left e j)
      else some (.refused (.stale e.kind epoch))
  /-- A refused push changes nothing; the queue's own record of it is read by no request. -/
  refused : ∀ j x, answer? capacity rs j = some (.refused x) →
    ∃ refusals, before capacity rs (j + 1) = { before capacity rs j with refusals := refusals }

end Run

section Lines

variable {capacity : Nat} {rs : List QueueRequest} {left : Nat → Option Nat} {high : Bool}

theorem mem_line {i j : Nat} {e : Event} :
    (i, e) ∈ line capacity rs left high j ↔
      i < j ∧ entered? capacity rs i = some e ∧ e.high = high ∧ ∀ k, left i = some k → j ≤ k := by
  simp only [line, List.mem_filterMap, List.mem_range, Option.bind_eq_some_iff,
    Option.ite_none_right_eq_some, Option.all_eq_true, decide_eq_true_eq]
  constructor
  · rintro ⟨i', hi, e', he, ⟨hp, hl⟩, h⟩
    cases h
    exact ⟨hi, he, hp, hl⟩
  · rintro ⟨hi, he, hp, hl⟩
    exact ⟨i, hi, e, he, ⟨hp, hl⟩, rfl⟩

theorem mem_waiting {i j : Nat} {e : Event} :
    (i, e) ∈ waiting capacity rs left j ↔
      i < j ∧ entered? capacity rs i = some e ∧ ∀ k, left i = some k → j ≤ k := by
  rw [waiting, List.mem_append, mem_line, mem_line]
  cases e.high <;> simp

theorem pairwise_line (j : Nat) : (line capacity rs left high j).Pairwise (·.1 < ·.1) := by
  refine List.pairwise_filterMap.2 (List.pairwise_lt_range.imp ?_)
  intro i k hik x hx y hy
  simp only [Option.bind_eq_some_iff, Option.ite_none_right_eq_some] at hx hy
  obtain ⟨e, -, -, hx⟩ := hx
  obtain ⟨f, -, -, hy⟩ := hy
  cases hx
  cases hy
  exact hik

theorem nodup_waiting (j : Nat) : ((waiting capacity rs left j).map (·.1)).Nodup := by
  have hl (high : Bool) : ((line capacity rs left high j).map (·.1)).Nodup :=
    List.pairwise_map.2 ((pairwise_line j).imp Nat.ne_of_lt)
  rw [waiting, List.map_append, List.nodup_append]
  refine ⟨hl true, hl false, ?_⟩
  rintro i hi k hk rfl
  obtain ⟨⟨i, e⟩, hx, rfl⟩ := List.mem_map.1 hi
  obtain ⟨⟨k, f⟩, hy, hk⟩ := List.mem_map.1 hk
  cases hk
  obtain ⟨-, hx, hxh, -⟩ := mem_line.1 hx
  obtain ⟨-, hy, hyh, -⟩ := mem_line.1 hy
  cases hx.symm.trans hy
  cases hxh.symm.trans hyh

end Lines

section Core

variable {capacity : Nat} {rs : List QueueRequest} {left : Nat → Option Nat}

/-- The invariant of a run, from which all else follows. -/
structure Fated (capacity : Nat) (rs : List QueueRequest) (left : Nat → Option Nat) : Prop where
  leaves : ∀ i j, left i = some j ↔
    ∃ r, rs[j]? = some r ∧ i ∈ (r.takes (waiting capacity rs left j)).map (·.1)
  lines : ∀ j ≤ rs.length,
    (before capacity rs j).Holds (line capacity rs left true j) (line capacity rs left false j)

theorem before_append {j : Nat} (hj : j ≤ rs.length) (r : QueueRequest) :
    before capacity (rs ++ [r]) j = before capacity rs j := by
  rw [before, List.take_append_of_le_length hj, before]

theorem entered?_append {i : Nat} (hi : i < rs.length) (r : QueueRequest) :
    entered? capacity (rs ++ [r]) i = entered? capacity rs i := by
  rw [entered?, List.getElem?_append_left hi, before_append (Nat.le_of_lt hi), entered?]

theorem before_succ {j : Nat} {r : QueueRequest} (hr : rs[j]? = some r) :
    before capacity rs (j + 1) = ((before capacity rs j).serve r).2 := by
  rw [before, List.take_add_one, hr, after, List.foldl_append]
  rfl

theorem entered?_of_getElem? {j : Nat} {r : QueueRequest} (hr : rs[j]? = some r) :
    entered? capacity rs j = r.entering? ((before capacity rs j).serve r).1 := by
  rw [entered?, hr, Option.bind_some]

namespace Fated

theorem lt_length (h : Fated capacity rs left) {i j : Nat} (hl : left i = some j) :
    j < rs.length := by
  obtain ⟨r, hr, -⟩ := (h.leaves i j).1 hl
  exact (List.getElem?_eq_some_iff.1 hr).1

theorem lt_of_left (h : Fated capacity rs left) {i j : Nat} (hl : left i = some j) : i < j := by
  obtain ⟨r, -, hm⟩ := (h.leaves i j).1 hl
  obtain ⟨⟨i, e⟩, hx, rfl⟩ := List.mem_map.1 hm
  exact (mem_waiting.1 ((r.takes_sublist _).subset hx)).1

def leave (capacity : Nat) (rs : List QueueRequest) (left : Nat → Option Nat) (r : QueueRequest)
    (i : Nat) : Option Nat :=
  if i ∈ (r.takes (waiting capacity rs left rs.length)).map (·.1) then some rs.length else left i

theorem left_eq_none (h : Fated capacity rs left) {i : Nat} {r : QueueRequest}
    (hi : i ∈ (r.takes (waiting capacity rs left rs.length)).map (·.1)) :
    i < rs.length ∧ left i = none := by
  obtain ⟨⟨i, e⟩, hx, rfl⟩ := List.mem_map.1 hi
  obtain ⟨hlt, -, hl⟩ := mem_waiting.1 ((r.takes_sublist _).subset hx)
  refine ⟨hlt, Option.eq_none_iff_forall_ne_some.2 fun k hk => ?_⟩
  exact absurd (h.lt_length hk) (Nat.not_lt.2 (hl k hk))

theorem line_leave (h : Fated capacity rs left) (r : QueueRequest) (high : Bool) {j : Nat}
    (hj : j ≤ rs.length) :
    line capacity (rs ++ [r]) (leave capacity rs left r) high j = line capacity rs left high j := by
  refine List.filterMap_congr fun i hi => ?_
  rw [entered?_append (Nat.lt_of_lt_of_le (List.mem_range.1 hi) hj)]
  have hl : (leave capacity rs left r i).all (j ≤ ·) = (left i).all (j ≤ ·) := by
    unfold leave
    split
    · next hm => simp [(h.left_eq_none hm).2, hj]
    · rfl
  rw [hl]

theorem line_leave_succ (h : Fated capacity rs left) (r : QueueRequest) (high : Bool) :
    line capacity (rs ++ [r]) (leave capacity rs left r) high (rs.length + 1) =
      r.spares (waiting capacity rs left rs.length) (line capacity rs left high rs.length) ++
        ((entered? capacity (rs ++ [r]) rs.length).toList.filter (·.high = high)).map (rs.length, ·) := by
  rw [line, List.range_succ, List.filterMap_append, QueueRequest.spares, line, List.filter_filterMap]
  congr 1
  · refine List.filterMap_congr fun i hi => ?_
    have hi := List.mem_range.1 hi
    rw [entered?_append hi]
    have hl : (leave capacity rs left r i).all (rs.length + 1 ≤ ·) =
        ((left i).all (rs.length ≤ ·) &&
          decide (i ∉ (r.takes (waiting capacity rs left rs.length)).map (·.1))) := by
      unfold leave
      split
      · next hm => simp [hm]
      · next hm =>
        cases hk : left i with
        | none => simp [hm]
        | some k =>
          have hlt : k < rs.length := h.lt_length hk
          rw [Option.all_some, Option.all_some, decide_eq_false (Nat.not_le.2 hlt),
            decide_eq_false (Nat.not_le.2 (Nat.lt_succ_of_lt hlt)), Bool.false_and]
    rw [hl]
    cases entered? capacity rs i with
    | none => rfl
    | some e =>
      by_cases hm : i ∈ (r.takes (waiting capacity rs left rs.length)).map (·.1)
      · by_cases hp : e.high = high ∧ (left i).all (rs.length ≤ ·) <;> simp [hp, hm, Option.filter]
      · by_cases hp : e.high = high ∧ (left i).all (rs.length ≤ ·) <;> simp [hp, hm, Option.filter]
  · have hl : leave capacity rs left r rs.length = none := by
      unfold leave
      split
      · next hm => exact absurd (h.left_eq_none hm).1 (Nat.lt_irrefl _)
      · refine Option.eq_none_iff_forall_ne_some.2 fun k hk => ?_
        exact absurd (h.lt_of_left hk) (Nat.not_lt.2 (Nat.le_of_lt (h.lt_length hk)))
    cases he : entered? capacity (rs ++ [r]) rs.length with
    | none => simp [he]
    | some e => by_cases hp : e.high = high <;> simp [he, hl, hp]

theorem waiting_leave (h : Fated capacity rs left) (r : QueueRequest) {j : Nat}
    (hj : j ≤ rs.length) :
    waiting capacity (rs ++ [r]) (leave capacity rs left r) j = waiting capacity rs left j := by
  rw [waiting, h.line_leave r true hj, h.line_leave r false hj, waiting]

theorem leave_eq_some_of_lt (h : Fated capacity rs left) (r : QueueRequest) {i j : Nat}
    (hj : j < rs.length) : leave capacity rs left r i = some j ↔ left i = some j := by
  unfold leave
  split
  · next hm => simp [(h.left_eq_none hm).2, Nat.ne_of_gt hj]
  · exact Iff.rfl

theorem leave_eq_some_length (h : Fated capacity rs left) (r : QueueRequest) {i : Nat} :
    leave capacity rs left r i = some rs.length ↔
      i ∈ (r.takes (waiting capacity rs left rs.length)).map (·.1) := by
  unfold leave
  split
  · next hm => simp [hm]
  · next hm => exact iff_of_false (fun hl => absurd (h.lt_length hl) (Nat.lt_irrefl _)) hm

theorem snoc (h : Fated capacity rs left) (r : QueueRequest) :
    Fated capacity (rs ++ [r]) (leave capacity rs left r) where
  leaves i j := by
    rcases Nat.lt_trichotomy j rs.length with hj | rfl | hj
    · rw [h.leave_eq_some_of_lt r hj, h.leaves, List.getElem?_append_left hj,
        h.waiting_leave r (Nat.le_of_lt hj)]
    · rw [h.leave_eq_some_length, h.waiting_leave r (Nat.le_refl _), List.getElem?_concat_length]
      simp
    · have hlen : (rs ++ [r]).length ≤ j := by
        rw [List.length_append]
        exact hj
      rw [List.getElem?_eq_none hlen]
      refine iff_of_false (fun hl => ?_) (by simp)
      unfold leave at hl
      split at hl
      · cases hl
        exact absurd hj (Nat.lt_irrefl _)
      · exact absurd (h.lt_length hl) (Nat.not_lt.2 (Nat.le_of_lt hj))
  lines j hj := by
    rw [List.length_append, List.length_singleton] at hj
    rcases Nat.le_succ_iff.1 hj with hj | rfl
    · rw [before_append hj, h.line_leave r true hj, h.line_leave r false hj]
      exact h.lines j hj
    · have hr : (rs ++ [r])[rs.length]? = some r := List.getElem?_concat_length
      have hs := lines_serve (h.lines rs.length (Nat.le_refl _)) r
      refine ⟨?_, ?_, nodup_waiting _⟩
      · rw [before_succ hr, before_append (Nat.le_refl _), hs.1, h.line_leave_succ,
          entered?_of_getElem? hr, before_append (Nat.le_refl _)]
        simp [lineAfter, waiting, Function.comp_def]
      · rw [before_succ hr, before_append (Nat.le_refl _), hs.2, h.line_leave_succ,
          entered?_of_getElem? hr, before_append (Nat.le_refl _)]
        simp [lineAfter, waiting, Function.comp_def]

end Fated

theorem fated_nil (capacity : Nat) : Fated capacity [] fun _ => none where
  leaves i j := by simp
  lines j hj := by
    cases Nat.le_zero.1 hj
    exact ⟨rfl, rfl, List.nodup_nil⟩

theorem exists_fated (capacity : Nat) (rs : List QueueRequest) :
    ∃ left, Fated capacity rs left := by
  induction rs using List.reverseRecOn with
  | nil => exact ⟨_, fated_nil capacity⟩
  | append_singleton rs r ih =>
    obtain ⟨left, h⟩ := ih
    exact ⟨_, h.snoc r⟩

end Core

namespace Fated

variable {capacity : Nat} {rs : List QueueRequest} {left : Nat → Option Nat}
  (h : Fated capacity rs left)

theorem answer?_of_getElem? {j : Nat} {r : QueueRequest} (hr : rs[j]? = some r) :
    answer? capacity rs j = some ((before capacity rs j).serve r).1 := by
  rw [answer?, hr, Option.map_some]

theorem epoch_before (j : Nat) :
    (before capacity rs j).epoch = (rs.take j).countP QueueRequest.isClear := by
  rw [before, (frame_after _ _).2.1]
  exact Nat.zero_add _

theorem closed_before (j : Nat) :
    (before capacity rs j).closed = (rs.take j).any QueueRequest.isClose := by
  rw [before, (frame_after _ _).2.2]
  exact Bool.false_or _

theorem capacity_before (j : Nat) : (before capacity rs j).capacity = capacity := by
  rw [before, (frame_after _ _).1]
  rfl

theorem bounded_before (j : Nat) : (before capacity rs j).Bounded :=
  (bounded_empty capacity).after _

theorem le_of_getElem? {j : Nat} {r : QueueRequest} (hr : rs[j]? = some r) : j ≤ rs.length :=
  Nat.le_of_lt (List.getElem?_eq_some_iff.1 hr).1

include h

theorem length_takes {j : Nat} {r : QueueRequest} (hr : rs[j]? = some r) :
    (r.takes (waiting capacity rs left j)).length = discarded left j := by
  have hd : ((r.takes (waiting capacity rs left j)).map (·.1)).Nodup :=
    (nodup_waiting j).sublist ((r.takes_sublist _).map _)
  have hd' : ((List.range j).filter fun i => left i = some j).Nodup :=
    List.nodup_range.sublist List.filter_sublist
  have hp := (List.perm_ext_iff_of_nodup hd hd').2 fun i => by
    rw [List.mem_filter, List.mem_range, decide_eq_true_iff]
    constructor
    · intro hi
      have hl := (h.leaves i j).2 ⟨r, hr, hi⟩
      exact ⟨h.lt_of_left hl, hl⟩
    · rintro ⟨-, hl⟩
      obtain ⟨r', hr', hi⟩ := (h.leaves i j).1 hl
      cases hr.symm.trans hr'
      exact hi
  rw [discarded, List.countP_eq_length_filter, ← hp.length_eq, List.length_map]

theorem length_normal {j : Nat} (hj : j ≤ rs.length) :
    (before capacity rs j).normal.length = (line capacity rs left false j).length := by
  rw [(h.lines j hj).normal, List.length_map]

theorem length_line_le {j : Nat} (hj : j ≤ rs.length) :
    (line capacity rs left false j).length ≤ capacity := by
  have bounded : (before capacity rs j).Bounded := bounded_before j
  have hr := bounded.room
  rwa [capacity_before, h.length_normal hj] at hr

theorem waiting_eq_nil {j : Nat} (hj : j ≤ rs.length)
    (hc : (rs.take j).any QueueRequest.isClose) : waiting capacity rs left j = [] := by
  have closed : (before capacity rs j).closed = true := (closed_before j).trans hc
  obtain ⟨hh, hn⟩ := (bounded_before j).closed closed
  rw [(h.lines j hj).high] at hh
  rw [(h.lines j hj).normal] at hn
  rw [waiting, List.map_eq_nil_iff.1 hh, List.map_eq_nil_iff.1 hn, List.append_nil]

theorem serve_push_eq_verdict {j : Nat} (hj : j ≤ rs.length) (e : Event) :
    ((before capacity rs j).serve (.push e)).1 = verdict capacity rs left e j := by
  have hfull : capacity ≤ (line capacity rs left false j).length ↔
      (line capacity rs left false j).length = capacity :=
    ⟨Nat.le_antisymm (h.length_line_le hj), fun he => Nat.le_of_eq he.symm⟩
  simp only [serve, EventQueue.push, receive, verdict, closed_before, capacity_before,
    h.length_normal hj, hfull]
  split
  · rfl
  · cases he : e.high
    · by_cases hl : (line capacity rs left false j).length = capacity <;>
        simp [hl, conclude, serve.answerPush]
    · simp [conclude, serve.answerPush]

theorem serve_pop {j : Nat} (hj : j ≤ rs.length) :
    ((before capacity rs j).serve .pop).1 =
      .popped ((waiting capacity rs left j).head?.map (·.2)) := by
  have hl := h.lines j hj
  simp only [serve, pop?, hl.high, hl.normal, waiting]
  cases line capacity rs left true j with
  | cons x highs => rfl
  | nil => cases line capacity rs left false j <;> rfl

theorem toList_before {j : Nat} (hj : j ≤ rs.length) :
    (before capacity rs j).toList = (waiting capacity rs left j).map (·.2) := by
  rw [toList, (h.lines j hj).high, (h.lines j hj).normal, waiting, List.map_append]

theorem serve_contains {j : Nat} (hj : j ≤ rs.length) (kind : EventKind) :
    ((before capacity rs j).serve (.contains kind)).1 =
      .found ((waiting capacity rs left j).any (·.2.kind = kind)) := by
  simp only [serve, EventQueue.contains, h.toList_before hj, List.any_map]
  rfl

theorem serve_clear {j : Nat} (hr : rs[j]? = some .clear) :
    ((before capacity rs j).serve .clear).1 = .dropped (discarded left j) := by
  simp only [serve]
  rw [← h.length_takes hr, ← length_toList, h.toList_before (le_of_getElem? hr), List.length_map]
  rfl

theorem serve_withdraw {j : Nat} {kind : EventKind} (hr : rs[j]? = some (.withdraw kind)) :
    ((before capacity rs j).serve (.withdraw kind)).1 = .dropped (discarded left j) := by
  have hl := List.length_eq_length_filter_add (l := waiting capacity rs left j) (·.2.kind = kind)
  have he : ((before capacity rs j).erase kind).size =
      ((waiting capacity rs left j).filter fun x => !decide (x.2.kind = kind)).length := by
    rw [← length_toList, toList_erase, h.toList_before (le_of_getElem? hr), List.filter_map,
      List.length_map]
    simp [Function.comp_def]
  simp only [serve]
  rw [← h.length_takes hr, ← length_toList, h.toList_before (le_of_getElem? hr), List.length_map, he,
    hl, Nat.add_sub_cancel]
  rfl

theorem fate_of_left {i j : Nat} {e : Event} (he : entered? capacity rs i = some e)
    (hl : left i = some j) :
    ∃ r, rs[j]? = some r ∧ (r = .pop ∧ answer? capacity rs j = some (.popped (some e)) ∨
      r = .clear ∨ r = .close ∨ r = .withdraw e.kind) := by
  obtain ⟨r, hr, hi⟩ := (h.leaves i j).1 hl
  refine ⟨r, hr, ?_⟩
  obtain ⟨⟨i, f⟩, hx, rfl⟩ := List.mem_map.1 hi
  have hw := (mem_waiting.1 ((r.takes_sublist _).subset hx)).2.1
  cases he.symm.trans hw
  cases r with
  | pop =>
    refine .inl ⟨rfl, ?_⟩
    rw [answer?_of_getElem? hr, h.serve_pop (le_of_getElem? hr)]
    rw [QueueRequest.takes, List.take_one] at hx
    rw [Option.mem_toList.1 hx]
    rfl
  | clear => exact .inr (.inl rfl)
  | close => exact .inr (.inr (.inl rfl))
  | withdraw kind =>
    obtain ⟨-, hk⟩ := List.mem_filter.1 hx
    rw [of_decide_eq_true hk]
    exact .inr (.inr (.inr rfl))
  | _ => cases hx

theorem taken_of_popped {j : Nat} {e : Event}
    (ha : answer? capacity rs j = some (.popped (some e))) :
    ∃ i, entered? capacity rs i = some e ∧ ∀ k, left k = some j ↔ k = i := by
  obtain ⟨r, hr, ha⟩ := Option.map_eq_some_iff.1 ha
  obtain rfl := eq_pop_of_popped ha
  rw [h.serve_pop (le_of_getElem? hr)] at ha
  obtain ⟨⟨i, f⟩, hx, hf⟩ := Option.map_eq_some_iff.1 (QueueAnswer.popped.inj ha)
  cases hf
  refine ⟨i, (mem_waiting.1 (List.mem_of_mem_head? hx)).2.1, fun k => ?_⟩
  rw [h.leaves]
  constructor
  · rintro ⟨r, hr', hk⟩
    cases hr.symm.trans hr'
    simpa [QueueRequest.takes, List.take_one, hx] using hk
  · rintro rfl
    exact ⟨.pop, hr, by simp [QueueRequest.takes, List.take_one, hx]⟩

theorem fate {i : Nat} {e : Event} (he : entered? capacity rs i = some e) :
    (left i = none ∧ (i, e) ∈ waiting capacity rs left rs.length) ∨
      ∃ j r, left i = some j ∧ i < j ∧ rs[j]? = some r ∧
        (r = .pop ∧ answer? capacity rs j = some (.popped (some e)) ∨
          r = .clear ∨ r = .close ∨ r = .withdraw e.kind) := by
  cases hl : left i with
  | none =>
    obtain ⟨r, hr, -⟩ := Option.bind_eq_some_iff.1 he
    have hi : i < rs.length := (List.getElem?_eq_some_iff.1 hr).1
    exact .inl ⟨rfl, mem_waiting.2 ⟨hi, he, by simp [hl]⟩⟩
  | some j =>
    obtain ⟨r, hr, hf⟩ := h.fate_of_left he hl
    exact .inr ⟨j, r, rfl, h.lt_of_left hl, hr, hf⟩

end Fated

/-- There is an account of everything that is asked of a new queue, in any order. -/
theorem exists_account (capacity : Nat) (rs : List QueueRequest) :
    ∃ left, Account capacity rs left := by
  obtain ⟨left, h⟩ := exists_fated capacity rs
  have answered {j : Nat} {r : QueueRequest} (hr : rs[j]? = some r) :
      answer? capacity rs j = some ((before capacity rs j).serve r).1 :=
    Fated.answer?_of_getElem? hr
  refine ⟨left, ?_⟩
  constructor
  case lines => exact fun j hj => ⟨(h.lines j hj).high, (h.lines j hj).normal⟩
  case room => exact fun j hj => h.length_line_le hj
  case epoch => exact fun j _ => Fated.epoch_before j
  case closed => exact fun j hj => ⟨Fated.closed_before j, h.waiting_eq_nil hj⟩
  case leaves => exact h.leaves
  case fates => exact fun i e he => h.fate he
  case popped => exact fun j e ha => h.taken_of_popped ha
  case pop =>
    intro j hr
    rw [answered hr, h.serve_pop (Fated.le_of_getElem? hr)]
  case clear =>
    intro j hr
    rw [answered hr, h.serve_clear hr]
  case withdraw =>
    intro j kind hr
    rw [answered hr, h.serve_withdraw hr]
  case contains =>
    intro j kind hr
    rw [answered hr, h.serve_contains (Fated.le_of_getElem? hr)]
  case push =>
    intro j e hr
    rw [answered hr, h.serve_push_eq_verdict (Fated.le_of_getElem? hr)]
  case pushIn =>
    intro j epoch e hr
    rw [answered hr, serve_pushIn, Fated.epoch_before]
    split
    · rw [h.serve_push_eq_verdict (Fated.le_of_getElem? hr)]
    · rfl
  case refused =>
    intro j x ha
    obtain ⟨r, hr, ha⟩ := Option.map_eq_some_iff.1 ha
    rw [before_succ hr]
    exact eq_of_refused ha

end EventQueue

end PrimScript
