import Mathlib.Data.List.Nodup
import PrimScript.Event.Queue

/-! What a request does to a queue: to its two lines, whose events have numbers here so that equal ones can
be told apart, and to the rest of it. -/

namespace PrimScript

namespace QueueRequest

def isClear : QueueRequest → Bool
  | .clear => true
  | _ => false

def isClose : QueueRequest → Bool
  | .close => true
  | _ => false

def entering? : QueueRequest → QueueAnswer → Option Event
  | .push e, .accepted => some e
  | .pushIn _ e, .accepted => some e
  | _, _ => none

theorem entering?_pushIn (epoch : Nat) (e : Event) (a : QueueAnswer) :
    (pushIn epoch e).entering? a = (push e).entering? a := by cases a <;> rfl

def takes : QueueRequest → List (Nat × Event) → List (Nat × Event)
  | .pop, waiting => waiting.take 1
  | .clear, waiting => waiting
  | .close, waiting => waiting
  | .withdraw kind, waiting => waiting.filter (·.2.kind = kind)
  | _, _ => []

theorem takes_sublist (r : QueueRequest) (waiting : List (Nat × Event)) :
    (r.takes waiting).Sublist waiting := by
  cases r with
  | pop => exact List.take_sublist 1 waiting
  | clear => exact .refl _
  | close => exact .refl _
  | withdraw kind => exact List.filter_sublist
  | _ => exact List.nil_sublist _

def spares (r : QueueRequest) (waiting events : List (Nat × Event)) : List (Nat × Event) :=
  events.filter (·.1 ∉ (r.takes waiting).map (·.1))

section Spares

variable {waiting events : List (Nat × Event)}

theorem spares_of_takes_nil {r : QueueRequest} (h : r.takes waiting = []) :
    r.spares waiting events = events := by
  simp [spares, h]

theorem spares_of_takes_all {r : QueueRequest} (h : r.takes waiting = waiting)
    (hs : events ⊆ waiting) : r.spares waiting events = [] := by
  refine List.filter_eq_nil_iff.2 fun x hx => ?_
  rw [h]
  simpa using ⟨x.2, hs hx⟩

theorem spares_withdraw (hd : (waiting.map (·.1)).Nodup) (hs : events ⊆ waiting)
    (kind : EventKind) :
    (withdraw kind).spares waiting events = events.filter (·.2.kind ≠ kind) := by
  refine List.filter_congr fun x hx => ?_
  have hmem : x.1 ∈ ((withdraw kind).takes waiting).map (·.1) ↔ x.2.kind = kind := by
    constructor
    · intro h
      obtain ⟨y, hy, hyx⟩ := List.mem_map.1 h
      obtain ⟨hy, hk⟩ := List.mem_filter.1 hy
      cases List.inj_on_of_nodup_map hd hy (hs hx) hyx
      exact of_decide_eq_true hk
    · intro h
      exact List.mem_map_of_mem (List.mem_filter.2 ⟨hs hx, decide_eq_true h⟩)
  simp only [hmem, ne_eq]

theorem spares_pop {x : Nat × Event} (hd : ((x :: waiting).map (·.1)).Nodup)
    (hs : events ⊆ waiting) : pop.spares (x :: waiting) events = events := by
  refine List.filter_eq_self.2 fun y hy => ?_
  have hy' : y.1 ∈ waiting.map (·.1) := List.mem_map_of_mem (hs hy)
  have hne : y.1 ≠ x.1 := by
    intro h
    rw [h] at hy'
    exact (List.nodup_cons.1 hd).1 hy'
  simpa [takes] using hne

theorem spares_pop_cons {x : Nat × Event} (hd : ((x :: waiting).map (·.1)).Nodup)
    (hs : events ⊆ waiting) : pop.spares (x :: waiting) (x :: events) = events := by
  have hx : pop.spares (x :: waiting) (x :: events) = pop.spares (x :: waiting) events :=
    List.filter_cons_of_neg (by simp [takes])
  rw [hx, spares_pop hd hs]

end Spares

end QueueRequest

namespace EventQueue

def after (q : EventQueue) (rs : List QueueRequest) : EventQueue :=
  rs.foldl (fun q r => (q.serve r).2) q

section Serve

variable {q : EventQueue}

theorem serve_push (q : EventQueue) (e : Event) :
    (∃ x, q.serve (.push e) = (.refused x, q.refuse e x)) ∨
      (q.closed = false ∧ e.high = true ∧ ∃ past, q.serve (.push e) =
        (.accepted, { q with high := q.high ++ [e], past := past })) ∨
      (q.closed = false ∧ e.high = false ∧ q.normal.length < q.capacity ∧ ∃ past,
        q.serve (.push e) = (.accepted, { q with normal := q.normal ++ [e], past := past })) := by
  simp only [serve, EventQueue.push, receive]
  split
  · exact .inl ⟨_, rfl⟩
  · next hc =>
    split
    · next he => exact .inr (.inl ⟨by simpa using hc, he, _, rfl⟩)
    · next he =>
      split
      · exact .inl ⟨_, rfl⟩
      · next hr =>
        exact .inr (.inr ⟨by simpa using hc, by simpa using he, Nat.not_le.1 hr, _, rfl⟩)

theorem serve_pushIn (q : EventQueue) (epoch : Nat) (e : Event) :
    q.serve (.pushIn epoch e) =
      if q.epoch = epoch then q.serve (.push e)
      else (.refused (.stale e.kind epoch), q.refuse e (.stale e.kind epoch)) := by
  simp only [serve, pushIn]
  split <;> rfl

theorem serve_push_answer (q : EventQueue) (e : Event) :
    (q.serve (.push e)).1 = .accepted ∨ ∃ x, q.serve (.push e) = (.refused x, q.refuse e x) := by
  rcases serve_push q e with hx | ⟨-, -, past, hs⟩ | ⟨-, -, -, past, hs⟩
  · exact .inr hx
  · exact .inl (by rw [hs])
  · exact .inl (by rw [hs])

theorem serve_pushIn_answer (q : EventQueue) (epoch : Nat) (e : Event) :
    (q.serve (.pushIn epoch e)).1 = .accepted ∨
      ∃ x, q.serve (.pushIn epoch e) = (.refused x, q.refuse e x) := by
  rw [serve_pushIn]
  split
  · exact serve_push_answer q e
  · exact .inr ⟨_, rfl⟩

theorem eq_of_refused {r : QueueRequest} {x : EventError} (h : (q.serve r).1 = .refused x) :
    ∃ refusals, (q.serve r).2 = { q with refusals := refusals } := by
  cases r with
  | push e =>
    rcases serve_push_answer q e with hs | ⟨y, hs⟩
    · cases hs.symm.trans h
    · exact ⟨_, by rw [hs]; rfl⟩
  | pushIn epoch e =>
    rcases serve_pushIn_answer q epoch e with hs | ⟨y, hs⟩
    · cases hs.symm.trans h
    · exact ⟨_, by rw [hs]; rfl⟩
  | pop =>
    simp only [serve] at h
    split at h <;> cases h
  | _ => cases h

theorem eq_pop_of_popped {r : QueueRequest} {e : Option Event} (h : (q.serve r).1 = .popped e) :
    r = .pop := by
  cases r with
  | pop => rfl
  | push e =>
    rcases serve_push_answer q e with hs | ⟨y, hs⟩
    · cases hs.symm.trans h
    · rw [hs] at h
      cases h
  | pushIn epoch e =>
    rcases serve_pushIn_answer q epoch e with hs | ⟨y, hs⟩
    · cases hs.symm.trans h
    · rw [hs] at h
      cases h
  | _ => cases h

/-- A line after a request: what the request takes is gone, and what it brings stands at the end. -/
def lineAfter (r : QueueRequest) (q : EventQueue) (waiting : List (Nat × Event)) (high : Bool)
    (events : List (Nat × Event)) : List Event :=
  (r.spares waiting events).map (·.2) ++
    (r.entering? (q.serve r).1).toList.filter (·.high = high)

structure Holds (q : EventQueue) (highs normals : List (Nat × Event)) : Prop where
  high : q.high = highs.map (·.2)
  normal : q.normal = normals.map (·.2)
  nodup : ((highs ++ normals).map (·.1)).Nodup

variable {highs normals : List (Nat × Event)}

theorem lines_serve (h : q.Holds highs normals) (r : QueueRequest) :
    (q.serve r).2.high = lineAfter r q (highs ++ normals) true highs ∧
      (q.serve r).2.normal = lineAfter r q (highs ++ normals) false normals := by
  obtain ⟨hh, hn, hd⟩ := h
  have hsh : highs ⊆ highs ++ normals := List.subset_append_left _ _
  have hsn : normals ⊆ highs ++ normals := List.subset_append_right _ _
  have hpush (e : Event) :
      (q.serve (.push e)).2.high = lineAfter (.push e) q (highs ++ normals) true highs ∧
        (q.serve (.push e)).2.normal = lineAfter (.push e) q (highs ++ normals) false normals := by
    rw [lineAfter, lineAfter, QueueRequest.spares_of_takes_nil rfl, QueueRequest.spares_of_takes_nil rfl]
    rcases serve_push q e with ⟨x, hs⟩ | ⟨-, he, past, hs⟩ | ⟨-, he, -, past, hs⟩
    · simp [hs, QueueRequest.entering?, hh, hn]
    · simp [hs, QueueRequest.entering?, he, hh, hn]
    · simp [hs, QueueRequest.entering?, he, hh, hn]
  cases r with
  | push e => exact hpush e
  | pushIn epoch e =>
    by_cases hq : q.epoch = epoch
    · have hs : q.serve (.pushIn epoch e) = q.serve (.push e) := by rw [serve_pushIn, if_pos hq]
      have hl (high : Bool) (events : List (Nat × Event)) :
          lineAfter (.pushIn epoch e) q (highs ++ normals) high events =
            lineAfter (.push e) q (highs ++ normals) high events := by
        rw [lineAfter, hs, QueueRequest.entering?_pushIn]
        rfl
      rw [hs, hl, hl]
      exact hpush e
    · rw [lineAfter, lineAfter, QueueRequest.spares_of_takes_nil rfl,
        QueueRequest.spares_of_takes_nil rfl, serve_pushIn, if_neg hq]
      simp [QueueRequest.entering?, hh, hn]
  | pop =>
    cases highs with
    | cons x highs =>
      rw [List.cons_append] at hd
      rw [lineAfter, lineAfter, List.cons_append,
        QueueRequest.spares_pop_cons hd (List.subset_append_left _ _),
        QueueRequest.spares_pop hd (List.subset_append_right _ _)]
      simp [serve, pop?, hh, hn, QueueRequest.entering?]
    | nil =>
      cases normals with
      | cons x normals =>
        rw [lineAfter, lineAfter, List.nil_append,
          QueueRequest.spares_pop_cons hd (List.Subset.refl _)]
        simp [serve, pop?, hh, hn, QueueRequest.spares, QueueRequest.entering?]
      | nil => simp [serve, pop?, hh, hn, lineAfter, QueueRequest.spares, QueueRequest.entering?]
  | clear =>
    rw [lineAfter, lineAfter, QueueRequest.spares_of_takes_all rfl hsh,
      QueueRequest.spares_of_takes_all rfl hsn]
    exact ⟨rfl, rfl⟩
  | close =>
    rw [lineAfter, lineAfter, QueueRequest.spares_of_takes_all rfl hsh,
      QueueRequest.spares_of_takes_all rfl hsn]
    exact ⟨rfl, rfl⟩
  | withdraw kind =>
    rw [lineAfter, lineAfter, QueueRequest.spares_withdraw hd hsh, QueueRequest.spares_withdraw hd hsn]
    simp [serve, erase, QueueRequest.entering?, hh, hn, List.filter_map, Function.comp_def]
  | contains kind =>
    rw [lineAfter, lineAfter, QueueRequest.spares_of_takes_nil rfl, QueueRequest.spares_of_takes_nil rfl]
    simp [serve, QueueRequest.entering?, hh, hn]

end Serve

section Bounds

variable {capacity : Nat} {q : EventQueue}

theorem frame_serve (q : EventQueue) (r : QueueRequest) :
    (q.serve r).2.capacity = q.capacity ∧
      (q.serve r).2.epoch = q.epoch + [r].countP QueueRequest.isClear ∧
      (q.serve r).2.closed = (q.closed || [r].any QueueRequest.isClose) := by
  have hpush (e : Event) : (q.serve (.push e)).2.capacity = q.capacity ∧
      (q.serve (.push e)).2.epoch = q.epoch ∧ (q.serve (.push e)).2.closed = q.closed := by
    rcases serve_push q e with ⟨x, hs⟩ | ⟨-, -, past, hs⟩ | ⟨-, -, -, past, hs⟩ <;> simp [hs]
  cases r with
  | push e => simpa [QueueRequest.isClear, QueueRequest.isClose] using hpush e
  | pushIn epoch e =>
    rw [serve_pushIn]
    split
    · simpa [QueueRequest.isClear, QueueRequest.isClose] using hpush e
    · simp [QueueRequest.isClear, QueueRequest.isClose]
  | pop =>
    simp only [serve, pop?]
    cases q.high <;> cases q.normal <;> simp [QueueRequest.isClear, QueueRequest.isClose]
  | clear => simp [serve, nextEpoch, QueueRequest.isClear, QueueRequest.isClose]
  | close => simp [serve, EventQueue.close, QueueRequest.isClear, QueueRequest.isClose]
  | withdraw kind => simp [serve, erase, QueueRequest.isClear, QueueRequest.isClose]
  | contains kind => simp [serve, QueueRequest.isClear, QueueRequest.isClose]

/-- There is room for what is pending, and nothing is pending once the queue is closed. -/
structure Bounded (q : EventQueue) : Prop where
  room : q.normal.length ≤ q.capacity
  closed : q.closed → q.high = [] ∧ q.normal = []

theorem Bounded.refuse (h : q.Bounded) (e : Event) (x : EventError) : (q.refuse e x).Bounded :=
  ⟨h.room, h.closed⟩

theorem Bounded.serve (h : q.Bounded) (r : QueueRequest) : (q.serve r).2.Bounded := by
  have hpush (e : Event) : (q.serve (.push e)).2.Bounded := by
    rcases serve_push q e with ⟨x, hs⟩ | ⟨hc, -, past, hs⟩ | ⟨hc, -, hr, past, hs⟩ <;> rw [hs]
    · exact h.refuse e x
    · exact ⟨h.room, fun hc' => absurd hc' (by simp [hc])⟩
    · refine ⟨?_, fun hc' => absurd hc' (by simp [hc])⟩
      rw [List.length_append]
      exact hr
  cases r with
  | push e => exact hpush e
  | pushIn epoch e =>
    rw [serve_pushIn]
    split
    · exact hpush e
    · exact h.refuse _ _
  | pop =>
    obtain ⟨hr, hc⟩ := h
    simp only [EventQueue.serve, pop?]
    cases hh : q.high with
    | cons e rest => exact ⟨hr, fun hc' => absurd (hc hc').1 (by simp [hh])⟩
    | nil =>
      cases hn : q.normal with
      | cons e rest =>
        refine ⟨?_, fun hc' => absurd (hc hc').2 (by simp [hn])⟩
        rw [hn] at hr
        exact Nat.le_of_succ_le hr
      | nil => exact ⟨hr, hc⟩
  | clear => exact ⟨Nat.zero_le _, fun _ => ⟨rfl, rfl⟩⟩
  | close => exact ⟨Nat.zero_le _, fun _ => ⟨rfl, rfl⟩⟩
  | withdraw kind =>
    refine ⟨Nat.le_trans (List.length_filter_le _ _) h.room, fun hc => ?_⟩
    obtain ⟨hh, hn⟩ := h.closed hc
    simp [EventQueue.serve, erase, hh, hn]
  | contains kind => exact h

theorem frame_after (q : EventQueue) (rs : List QueueRequest) :
    (q.after rs).capacity = q.capacity ∧
      (q.after rs).epoch = q.epoch + rs.countP QueueRequest.isClear ∧
      (q.after rs).closed = (q.closed || rs.any QueueRequest.isClose) := by
  induction rs generalizing q with
  | nil => simp [after]
  | cons r rs ih =>
    obtain ⟨hc, he, hx⟩ := frame_serve q r
    obtain ⟨hc', he', hx'⟩ := ih (q.serve r).2
    refine ⟨hc'.trans hc, he'.trans ?_, hx'.trans ?_⟩
    · rw [he, ← List.singleton_append (l := rs), List.countP_append, Nat.add_assoc]
    · rw [hx, ← List.singleton_append (l := rs), List.any_append, Bool.or_assoc]

theorem Bounded.after (h : q.Bounded) (rs : List QueueRequest) : (q.after rs).Bounded := by
  induction rs generalizing q with
  | nil => exact h
  | cons r rs ih => exact ih (h.serve r)

theorem bounded_empty (capacity : Nat) : (empty capacity).Bounded :=
  ⟨Nat.zero_le _, fun _ => ⟨rfl, rfl⟩⟩

end Bounds

end EventQueue

end PrimScript
