import PrimScript.Json.Record
import PrimScript.Json.Reader
import PrimScript.Settings.Basic

/-! Settings stored as JSON.  What is not given has its default. -/

namespace PrimScript

open Json

def Vec.toJson (v : Vector3) : Json := .obj [("x", .num v.x), ("y", .num v.y), ("z", .num v.z)]

def Quat.toJson (r : Rotation) : Json :=
  .obj [("x", .num r.x), ("y", .num r.y), ("z", .num r.z), ("s", .num r.s)]

namespace Settings

def ofString? : Option String → Json
  | some s => .str s
  | none => .null

def count (n : Nat) : Json := .int n

def objectToJson (o : ObjectSettings) : Json :=
  .obj
    [("name", .str o.name), ("description", .str o.description), ("key", ofString? o.key),
     ("owner_key", ofString? o.ownerKey), ("owner_name", .str o.ownerName),
     ("position", o.position.toJson), ("rotation", o.rotation.toJson),
     ("region", .str o.region), ("script_name", .str o.scriptName)]

def replyToJson (r : HttpReply) : Json :=
  .obj [("status", .int r.status.toInt), ("body", .str r.body)]

def requestsToJson (r : RequestSettings) : Json :=
  .obj
    [("mode", .str r.mode.name), ("timeout", count r.timeout), ("stub_latency", count r.latency),
     ("stubs", .obj (r.replies.map fun (address, reply) => (address, replyToJson reply)))]

def entityToJson (e : EntitySettings) : Json :=
  .obj
    [("name", .str e.name), ("key", ofString? e.key), ("entity_type", .int e.type.toInt),
     ("position", e.position.toJson)]

def sensorToJson (s : SensorSettings) : Json :=
  .obj [("max_results", count s.maxResults), ("entities", .arr (s.entities.map entityToJson))]

def toJson (s : Settings) : Json :=
  .obj
    [("loop_iteration_cap", count s.loopCap), ("max_call_depth", count s.maxCallDepth),
     ("queue_capacity", count s.queueCapacity), ("idle_poll_interval", count s.idlePoll),
     ("shutdown_timeout", count s.stopTimeout),
     ("clear_listeners_on_state_change", .bool s.clearsListeners),
     ("object", objectToJson s.object), ("http", requestsToJson s.requests),
     ("dataserver_delay", count s.answerDelay),
     ("notecards", .obj (s.notecards.map fun (name, lines) => (name, .arr (lines.map .str)))),
     ("notecard_dir", ofString? s.notecardFolder), ("sensor", sensorToJson s.sensor)]

def vector? : Decode Vector3 := inside fun room j => do
  let [x, y, z] ← record? ["x", "y", "z"] j | none
  some ⟨← required float? room x, ← required float? room y, ← required float? room z⟩

def rotation? : Decode Rotation := inside fun room j => do
  let [x, y, z, s] ← record? ["x", "y", "z", "s"] j | none
  some ⟨← required float? room x, ← required float? room y, ← required float? room z,
    ← required float? room s⟩

def object? : Decode ObjectSettings := inside fun room j => do
  let [name, description, key, ownerKey, ownerName, position, rotation, region, scriptName] ←
    record?
      ["name", "description", "key", "owner_key", "owner_name", "position", "rotation",
       "region", "script_name"] j | none
  let o := defaultObject
  some
    ⟨← orElse o.name string? room name, ← orElse o.description string? room description,
     ← optional string? room key, ← optional string? room ownerKey,
     ← orElse o.ownerName string? room ownerName, ← orElse o.position vector? room position,
     ← orElse o.rotation rotation? room rotation, ← orElse o.region string? room region,
     ← orElse o.scriptName string? room scriptName⟩

def reply? : Decode HttpReply := inside fun room j => do
  let [status, body] ← record? ["status", "body"] j | none
  some ⟨← orElse 200 int32? room status, ← orElse "" string? room body⟩

/-- A table of the settings; of two entries with one name the later one counts. -/
def table? {α : Type} (d : Decode α) : Decode (NameMap α) := fun room j =>
  (entries? d room j).map NameMap.ofList

def requests? : Decode RequestSettings := inside fun room j => do
  let [mode, timeout, latency, replies] ←
    record? ["mode", "timeout", "stub_latency", "stubs"] j | none
  let r := defaultRequests
  some
    ⟨← orElse r.mode (word? RequestMode.ofName?) room mode,
     ← orElse r.timeout nat64? room timeout, ← orElse r.latency nat64? room latency,
     ← orElse r.replies (table? reply?) room replies⟩

def entity? : Decode EntitySettings := inside fun room j => do
  let [name, key, type, position] ← record? ["name", "key", "entity_type", "position"] j | none
  some
    ⟨← required string? room name, ← optional string? room key, ← orElse 1 int32? room type,
     ← orElse defaultPosition vector? room position⟩

def sensor? : Decode SensorSettings := inside fun room j => do
  let [maxResults, entities] ← record? ["max_results", "entities"] j | none
  let s := defaultSensor
  some
    ⟨← orElse s.maxResults nat64? room maxResults,
     ← orElse s.entities (array? entity?) room entities⟩

def decode : Decode Settings := inside fun room j => do
  let [loopCap, maxCallDepth, queueCapacity, idlePoll, stopTimeout, clearsListeners, object,
      requests, answerDelay, notecards, notecardFolder, sensor] ←
    record?
      ["loop_iteration_cap", "max_call_depth", "queue_capacity", "idle_poll_interval",
       "shutdown_timeout", "clear_listeners_on_state_change", "object", "http",
       "dataserver_delay", "notecards", "notecard_dir", "sensor"] j | none
  let s := default
  some
    ⟨← orElse s.loopCap nat64? room loopCap, ← orElse s.maxCallDepth nat64? room maxCallDepth,
     ← orElse s.queueCapacity nat64? room queueCapacity, ← orElse s.idlePoll nat64? room idlePoll,
     ← orElse s.stopTimeout nat64? room stopTimeout,
     ← orElse s.clearsListeners bool? room clearsListeners, ← orElse s.object object? room object,
     ← orElse s.requests requests? room requests, ← orElse s.answerDelay nat64? room answerDelay,
     ← orElse s.notecards (table? (array? string?)) room notecards,
     ← optional string? room notecardFolder, ← orElse s.sensor sensor? room sensor⟩

def read? (text : String) : Option Settings := (Json.read? text).bind (decode 127)

end Settings

end PrimScript
