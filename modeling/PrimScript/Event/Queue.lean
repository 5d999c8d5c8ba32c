import PrimScript.Event.Basic
import PrimScript.History

/-! The event queue: two lines, one for events of high priority, each first in first out.  Clearing
the queue begins a new epoch; an event that was asked for in an earlier epoch is refused. -/

namespace PrimScript

inductive QueueChange
  | accepted (e : Event) : QueueChange
  | popped : QueueChange
  | cleared : QueueChange
  | closed : QueueChange
  | withdrawn (kind : EventKind) : QueueChange

inductive QueueRequest
  | push (e : Event) : QueueRequest
  | pushIn (epoch : Nat) (e : Event) : QueueRequest
  | pop : QueueRequest
  | clear : QueueRequest
  | close : QueueRequest
  | withdraw (kind : EventKind) : QueueRequest
  | contains (kind : EventKind) : QueueRequest

inductive QueueAnswer
  | accepted : QueueAnswer
  | refused (e : EventError) : QueueAnswer
  | popped (e : Option Event) : QueueAnswer
  | dropped (count : Nat) : QueueAnswer
  | closed : QueueAnswer
  | found (b : Bool) : QueueAnswer

structure Refusal where
  event : Event
  error : EventError

structure EventQueue where
  /-- How many events of normal priority may be pending. -/
  capacity : Nat
  high : List Event
  normal : List Event
  epoch : Nat
  closed : Bool
  past : History QueueChange
  refusals : History Refusal

namespace EventQueue

def empty (capacity : Nat) : EventQueue := ⟨capacity, [], [], 0, false, .empty, .empty⟩

def toList (q : EventQueue) : List Event := q.high ++ q.normal

def size (q : EventQueue) : Nat := q.high.length + q.normal.length

def receive (q : EventQueue) (e : Event) : Except EventError EventQueue :=
  if q.closed then .error .closed
  else if e.high then .ok { q with high := q.high ++ [e], past := q.past.push (.accepted e) }
  else if q.capacity ≤ q.normal.length then .error (.full e.kind q.capacity)
  else .ok { q with normal := q.normal ++ [e], past := q.past.push (.accepted e) }

def refuse (q : EventQueue) (e : Event) (x : EventError) : EventQueue :=
  { q with refusals := q.refusals.push ⟨e, x⟩ }

/-- What a push of an event comes to, and the queue after it. -/
def conclude (q : EventQueue) (e : Event) :
    Except EventError EventQueue → Except EventError Unit × EventQueue
  | .ok q => (.ok (), q)
  | .error x => (.error x, q.refuse e x)

def push (q : EventQueue) (e : Event) : Except EventError Unit × EventQueue :=
  q.conclude e (q.receive e)

def pushIn (q : EventQueue) (epoch : Nat) (e : Event) : Except EventError Unit × EventQueue :=
  q.conclude e (if q.epoch = epoch then q.receive e else .error (.stale e.kind epoch))

def pop? (q : EventQueue) : Option (Event × EventQueue) :=
  match q.high, q.normal with
  | e :: rest, _ => some (e, { q with high := rest, past := q.past.push .popped })
  | [], e :: rest => some (e, { q with normal := rest, past := q.past.push .popped })
  | [], [] => none

def nextEpoch (q : EventQueue) : EventQueue :=
  { q with high := [], normal := [], epoch := q.epoch + 1, past := q.past.push .cleared }

/-- A closed queue is empty and stays empty. -/
def close (q : EventQueue) : EventQueue :=
  { q with high := [], normal := [], closed := true, past := q.past.push .closed }

def contains (q : EventQueue) (kind : EventKind) : Bool := q.toList.any (·.kind = kind)

def erase (q : EventQueue) (kind : EventKind) : EventQueue :=
  { q with
    high := q.high.filter (·.kind ≠ kind)
    normal := q.normal.filter (·.kind ≠ kind)
    past := q.past.push (.withdrawn kind) }

def serve (q : EventQueue) : QueueRequest → QueueAnswer × EventQueue
  | .push e => answerPush (q.push e)
  | .pushIn epoch e => answerPush (q.pushIn epoch e)
  | .pop =>
    match q.pop? with
    | some (e, q) => (.popped (some e), q)
    | none => (.popped none, q)
  | .clear => (.dropped q.size, q.nextEpoch)
  | .close => (.closed, q.close)
  | .withdraw kind => (.dropped (q.size - (q.erase kind).size), q.erase kind)
  | .contains kind => (.found (q.contains kind), q)
where
  answerPush : Except EventError Unit × EventQueue → QueueAnswer × EventQueue
    | (.ok (), q) => (.accepted, q)
    | (.error x, q) => (.refused x, q)

@[simp] theorem length_toList (q : EventQueue) : q.toList.length = q.size := by
  simp [toList, size]

@[simp] theorem toList_empty (capacity : Nat) : (empty capacity).toList = [] := rfl

@[simp] theorem toList_nextEpoch (q : EventQueue) : q.nextEpoch.toList = [] := rfl

section Refuse

variable (q : EventQueue) (e : Event) (x : EventError)

@[simp] theorem capacity_refuse : (q.refuse e x).capacity = q.capacity := rfl

@[simp] theorem high_refuse : (q.refuse e x).high = q.high := rfl

@[simp] theorem normal_refuse : (q.refuse e x).normal = q.normal := rfl

@[simp] theorem epoch_refuse : (q.refuse e x).epoch = q.epoch := rfl

@[simp] theorem closed_refuse : (q.refuse e x).closed = q.closed := rfl

@[simp] theorem past_refuse : (q.refuse e x).past = q.past := rfl

@[simp] theorem toList_refuse : (q.refuse e x).toList = q.toList := rfl

end Refuse

theorem push_cases (q : EventQueue) (e : Event) :
    (∃ q', q.receive e = .ok q' ∧ q.push e = (.ok (), q')) ∨
      ∃ x, q.receive e = .error x ∧ q.push e = (.error x, q.refuse e x) := by
  unfold push
  cases hq : q.receive e with
  | ok q' => exact .inl ⟨q', rfl, rfl⟩
  | error x => exact .inr ⟨x, rfl, rfl⟩

theorem pushIn_cases (q : EventQueue) (epoch : Nat) (e : Event) :
    (q.epoch = epoch ∧ q.pushIn epoch e = q.push e) ∨
      (q.epoch ≠ epoch ∧
        q.pushIn epoch e = (.error (.stale e.kind epoch), q.refuse e (.stale e.kind epoch))) := by
  by_cases h : q.epoch = epoch
  · exact .inl ⟨h, by rw [pushIn, if_pos h, push]⟩
  · exact .inr ⟨h, by rw [pushIn, if_neg h, conclude]⟩

theorem toList_of_pop? {q q' : EventQueue} {e : Event} (h : q.pop? = some (e, q')) :
    q.toList = e :: q'.toList := by
  unfold pop? at h
  split at h
  · next hh =>
    cases h
    simp [toList, hh]
  · next hh hn =>
    cases h
    simp [toList, hh, hn]
  · cases h

@[simp] theorem toList_close (q : EventQueue) : q.close.toList = [] := rfl

@[simp] theorem toList_erase (q : EventQueue) (kind : EventKind) :
    (q.erase kind).toList = q.toList.filter (·.kind ≠ kind) := by
  simp [toList, erase]

end EventQueue

end PrimScript
