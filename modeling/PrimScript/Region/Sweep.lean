import PrimScript.Event.Basic
import PrimScript.NameMap

/-! Sensor sweeps: the entities near a vantage point that a query asks for, the nearest first. -/

namespace PrimScript

structure SensorQuery where
  /-- The name looked for; any when empty. -/
  name : String
  /-- The key looked for; any when it is not a key or the null key. -/
  key : String
  /-- The kinds of thing looked for, one per bit. -/
  mask : Int32
  range : Float
  /-- The angle off the forward direction up to which things are seen. -/
  arc : Float

structure Vantage where
  position : Vector3
  rotation : Rotation

namespace SensorQuery

def maxRange : Float := 96

def pi : Float := 3.141592653589793

def clamp (x low high : Float) : Float := if x < low then low else if high < x then high else x

def selects (q : SensorQuery) (e : Entity) : Bool :=
  let key := Key.normalize q.key
  (q.name == "" || e.name == q.name) && (key == Key.null || e.key == key) &&
    e.type &&& q.mask != 0

def reaches (q : SensorQuery) (forward offset : Vector3) (distance : Float) : Bool :=
  !(clamp q.range 0 maxRange < distance) &&
    !(q.arc < pi && 0 < distance &&
      q.arc < (clamp (forward.dot offset / distance) (-1) 1).acos)

def distance? (q : SensorQuery) (v : Vantage) (e : Entity) : Option Float :=
  let forward := v.rotation.apply ⟨1, 0, 0⟩
  let offset := e.position.sub v.position
  let distance := Vector3.magnitude offset
  if q.selects e && q.reaches forward offset distance then some distance else none

end SensorQuery

/-- The place of a float in the order of all floats: by size, with negative zero just before zero
and what is not a number at the ends. -/
def rank (x : Float) : Int :=
  let bits := x.toBits.toNat
  if bits < Nat.pow 2 63 then bits else Nat.pow 2 63 - 1 - (bits : Int)

def nearer (a b : Float) : Bool := rank a < rank b

/-- A hit put in its place; it goes behind those that are as near. -/
def insertHit (hit : Float × Entity) : List (Float × Entity) → List (Float × Entity)
  | [] => [hit]
  | h :: hits => if nearer hit.1 h.1 then hit :: h :: hits else h :: insertHit hit hits

/-- At most `count` of the entities that the query finds, the nearest first. -/
def sweep (entities : List Entity) (q : SensorQuery) (v : Vantage) (count : Nat) : List Entity :=
  let hits := entities.filterMap fun e => (q.distance? v e).map (·, e)
  ((hits.foldl (fun sorted hit => insertHit hit sorted) []).take count).map (·.2)

def sweepEvent (found : List Entity) : Event :=
  if found.isEmpty then .ofKind .noSensor []
  else (Event.ofKind .sensor [.integer (Int32.ofNat found.length)]).withDetected found

abbrev Region := NameMap Entity

namespace Region

def place (r : Region) (e : Entity) : Region := r.insert (Key.normalize e.key) e

def entity? (r : Region) (key : String) : Option Entity := r.find? (Key.normalize key)

def contains (r : Region) (key : String) : Bool := (r.entity? key).isSome

def remove (r : Region) (key : String) : Region := r.filter (·.1 ≠ Key.normalize key)

def named? (r : Region) (name : String) : Option Entity := (r.map (·.2)).find? (·.name = name)

def entities (r : Region) : List Entity := r.map (·.2)

end Region

end PrimScript
