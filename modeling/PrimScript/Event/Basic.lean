import PrimScript.Event.Kind
import PrimScript.History
import PrimScript.Region.Entity
import PrimScript.Value.Coerce

/-! Events: what happened, with arguments for the handler and the entities it was detected from. -/

namespace PrimScript

structure Event where
  kind : EventKind
  args : List Value
  detected : List Entity
  /-- Events of high priority go before all others and are not counted against the capacity. -/
  high : Bool
  /-- For what the timer and the sensor produce, the states entered by the time it was asked for. -/
  asked : Option (History String)
  deriving Inhabited

inductive EventError
  | unknown (name : String) : EventError
  | closed : EventError
  | full (event : EventKind) (capacity : Nat) : EventError
  | stale (event : EventKind) (epoch : Nat) : EventError
  deriving DecidableEq, Repr

def EventError.message : EventError → String
  | .unknown name => s!"Unknown event: {name}"
  | .closed => "Event queue is closed"
  | .full event capacity => s!"Event queue is full ({capacity} pending), dropped `{event.name}`"
  | .stale event epoch => s!"Stale event `{event.name}` from epoch {epoch} dropped"

namespace Event

def ofKind (kind : EventKind) (args : List Value) : Event := ⟨kind, args, [], false, none⟩

def withDetected (e : Event) (entities : List Entity) : Event := { e with detected := entities }

/-- The event as it comes of what was asked for by the time those states had been entered. -/
def askedAt (e : Event) (entered : History String) : Event := { e with asked := some entered }

/-- One value for each type: the given values coerced to the types, and zeros after them. -/
def conform : List ValueType → List Value → List Value
  | [], _ => []
  | t :: ts, [] => .zero t :: conform ts []
  | t :: ts, v :: vs => v.coerce t :: conform ts vs

def named (name : String) (args : List Value) : Except EventError Event :=
  match EventKind.ofName? name with
  | some kind => .ok (ofKind kind (conform kind.params args))
  | none => .error (.unknown name)

theorem exists_ofKind_of_named {name : String} {args : List Value} {e : Event}
    (h : named name args = .ok e) : ∃ kind args, e = ofKind kind args := by
  unfold named at h
  split at h
  · cases h
    exact ⟨_, _, rfl⟩
  · cases h

end Event

end PrimScript
