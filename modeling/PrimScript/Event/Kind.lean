import PrimScript.Syntax.ValueType

/-! The catalog of events: their names, the parameters their handlers take, and which of them come
with detected entities. -/

namespace PrimScript

inductive EventKind
  | stateEntry : EventKind
  | stateExit : EventKind
  | touchStart : EventKind
  | touch : EventKind
  | touchEnd : EventKind
  | collisionStart : EventKind
  | collision : EventKind
  | collisionEnd : EventKind
  | landCollisionStart : EventKind
  | landCollision : EventKind
  | landCollisionEnd : EventKind
  | timer : EventKind
  | listen : EventKind
  | sensor : EventKind
  | noSensor : EventKind
  | control : EventKind
  | atTarget : EventKind
  | notAtTarget : EventKind
  | atRotTarget : EventKind
  | notAtRotTarget : EventKind
  | money : EventKind
  | email : EventKind
  | runTimePermissions : EventKind
  | changed : EventKind
  | attach : EventKind
  | dataserver : EventKind
  | movingStart : EventKind
  | movingEnd : EventKind
  | objectRez : EventKind
  | onRez : EventKind
  | remoteData : EventKind
  | httpResponse : EventKind
  | httpRequest : EventKind
  | linkMessage : EventKind
  | transactionResult : EventKind
  deriving DecidableEq, Repr, Inhabited

namespace EventKind

def all : List EventKind :=
  [.stateEntry, .stateExit, .touchStart, .touch, .touchEnd, .collisionStart, .collision,
   .collisionEnd, .landCollisionStart, .landCollision, .landCollisionEnd, .timer, .listen,
   .sensor, .noSensor, .control, .atTarget, .notAtTarget, .atRotTarget, .notAtRotTarget,
   .money, .email, .runTimePermissions, .changed, .attach, .dataserver, .movingStart,
   .movingEnd, .objectRez, .onRez, .remoteData, .httpResponse, .httpRequest, .linkMessage,
   .transactionResult]

def name : EventKind → String
  | .stateEntry => "state_entry"
  | .stateExit => "state_exit"
  | .touchStart => "touch_start"
  | .touch => "touch"
  | .touchEnd => "touch_end"
  | .collisionStart => "collision_start"
  | .collision => "collision"
  | .collisionEnd => "collision_end"
  | .landCollisionStart => "land_collision_start"
  | .landCollision => "land_collision"
  | .landCollisionEnd => "land_collision_end"
  | .timer => "timer"
  | .listen => "listen"
  | .sensor => "sensor"
  | .noSensor => "no_sensor"
  | .control => "control"
  | .atTarget => "at_target"
  | .notAtTarget => "not_at_target"
  | .atRotTarget => "at_rot_target"
  | .notAtRotTarget => "not_at_rot_target"
  | .money => "money"
  | .email => "email"
  | .runTimePermissions => "run_time_permissions"
  | .changed => "changed"
  | .attach => "attach"
  | .dataserver => "dataserver"
  | .movingStart => "moving_start"
  | .movingEnd => "moving_end"
  | .objectRez => "object_rez"
  | .onRez => "on_rez"
  | .remoteData => "remote_data"
  | .httpResponse => "http_response"
  | .httpRequest => "http_request"
  | .linkMessage => "link_message"
  | .transactionResult => "transaction_result"

def ofName? (s : String) : Option EventKind := all.find? (·.name = s)

@[simp] theorem ofName?_name (k : EventKind) : ofName? k.name = some k := by cases k <;> rfl

def params : EventKind → List ValueType
  | .touchStart => [.integer]
  | .touch => [.integer]
  | .touchEnd => [.integer]
  | .collisionStart => [.integer]
  | .collision => [.integer]
  | .collisionEnd => [.integer]
  | .landCollisionStart => [.vector]
  | .landCollision => [.vector]
  | .landCollisionEnd => [.vector]
  | .listen => [.integer, .string, .key, .string]
  | .sensor => [.integer]
  | .control => [.key, .integer, .integer]
  | .atTarget => [.integer, .vector, .vector]
  | .atRotTarget => [.integer, .rotation, .rotation]
  | .money => [.key, .integer]
  | .email => [.string, .string, .string, .string, .integer]
  | .runTimePermissions => [.integer]
  | .changed => [.integer]
  | .attach => [.key]
  | .dataserver => [.key, .string]
  | .objectRez => [.key]
  | .onRez => [.integer]
  | .remoteData => [.integer, .key, .key, .string, .integer, .string]
  | .httpResponse => [.key, .integer, .list, .string]
  | .httpRequest => [.key, .string, .string]
  | .linkMessage => [.integer, .integer, .string, .key]
  | .transactionResult => [.key, .integer, .string]
  | _ => []

def hasDetected : EventKind → Bool
  | .touchStart => true
  | .touch => true
  | .touchEnd => true
  | .collisionStart => true
  | .collision => true
  | .collisionEnd => true
  | .sensor => true
  | _ => false

end EventKind

end PrimScript
