import PrimScript.Key

/-! Listeners: filters on what is said.  Each has a handle of its own, and there are at most
`Listeners.limit` of them at a time. -/

namespace PrimScript

structure Listener where
  channel : Int32
  /-- The speaker's name; any when empty. -/
  name : String
  /-- The speaker's key; any when it is the null key. -/
  key : String
  /-- What is said; anything when empty. -/
  message : String
  active : Bool
  deriving DecidableEq, Repr

def Listener.accepts (l : Listener) (channel : Int32) (name key message : String) : Bool :=
  l.active && l.channel == channel && (l.name == "" || l.name == name) &&
    (l.key == Key.null || l.key == Key.normalize key) &&
    (l.message == "" || l.message == message)

inductive ListenerRequest
  | add (channel : Int32) (name key message : String) : ListenerRequest
  | remove (handle : Int32) : ListenerRequest
  | setActive (handle : Int32) (active : Bool) : ListenerRequest
  | clear : ListenerRequest
  | hear (channel : Int32) (name key message : String) : ListenerRequest

inductive ListenerAnswer
  /-- The handle of the new listener; none when there is no room for it. -/
  | added (handle : Option Int32) : ListenerAnswer
  | found (b : Bool) : ListenerAnswer
  | cleared : ListenerAnswer
  | heard (handles : List Int32) : ListenerAnswer

structure Listeners where
  /-- The listeners with their handles, in the order they were added. -/
  entries : List (Int32 × Listener)
  next : Int32

namespace Listeners

def limit : Nat := 65

def empty : Listeners := ⟨[], 1⟩

def size (t : Listeners) : Nat := t.entries.length

/-- The handle of a new listener and the table with it; none when the table is full. -/
def add? (t : Listeners) (channel : Int32) (name key message : String) :
    Option (Int32 × Listeners) :=
  if limit ≤ t.size then none
  else
    let l : Listener := ⟨channel, name, Key.normalize key, message, true⟩
    some (t.next, ⟨t.entries ++ [(t.next, l)], t.next + 1⟩)

def contains (t : Listeners) (handle : Int32) : Bool := t.entries.any (·.1 = handle)

def remove (t : Listeners) (handle : Int32) : Listeners :=
  { t with entries := t.entries.filter (·.1 ≠ handle) }

def setActive (t : Listeners) (handle : Int32) (active : Bool) : Listeners :=
  { t with entries := t.entries.map fun (h, l) =>
      (h, if h = handle then { l with active := active } else l) }

def clear (t : Listeners) : Listeners := { t with entries := [] }

def matching (t : Listeners) (channel : Int32) (name key message : String) : List Int32 :=
  (t.entries.filter fun (_, l) => l.accepts channel name key message).map (·.1)

def serve (t : Listeners) : ListenerRequest → ListenerAnswer × Listeners
  | .add channel name key message =>
    match t.add? channel name key message with
    | some (handle, t) => (.added (some handle), t)
    | none => (.added none, t)
  | .remove handle => (.found (t.contains handle), t.remove handle)
  | .setActive handle active => (.found (t.contains handle), t.setActive handle active)
  | .clear => (.cleared, t.clear)
  | .hear channel name key message => (.heard (t.matching channel name key message), t)

end Listeners

end PrimScript
