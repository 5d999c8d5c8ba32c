import PrimScript.Geometry.Quat
import PrimScript.NameMap

/-! Settings: the limits on a script, the object it lives in, the answers to its requests, and what
else is in the region.  Times are in milliseconds. -/

namespace PrimScript

structure ObjectSettings where
  name : String
  description : String
  /-- A fresh key when none is given. -/
  key : Option String
  ownerKey : Option String
  ownerName : String
  position : Vector3
  rotation : Rotation
  region : String
  scriptName : String

/-- Where the answers to HTTP requests come from: the replies in the settings, or the network. -/
inductive RequestMode
  | stub : RequestMode
  | live : RequestMode
  deriving DecidableEq, Repr

namespace RequestMode

def name : RequestMode → String
  | .stub => "stub"
  | .live => "live"

def ofName? : String → Option RequestMode
  | "stub" => some .stub
  | "live" => some .live
  | _ => none

end RequestMode

structure HttpReply where
  status : Int32
  body : String

structure RequestSettings where
  mode : RequestMode
  timeout : Nat
  /-- How long the replies in the settings take. -/
  latency : Nat
  /-- The reply for each address. -/
  replies : NameMap HttpReply

structure EntitySettings where
  name : String
  key : Option String
  type : Int32
  position : Vector3

structure SensorSettings where
  maxResults : Nat
  entities : List EntitySettings

structure Settings where
  /-- How many passes a loop may make, and how many backward jumps a body. -/
  loopCap : Nat
  maxCallDepth : Nat
  queueCapacity : Nat
  idlePoll : Nat
  stopTimeout : Nat
  clearsListeners : Bool
  object : ObjectSettings
  requests : RequestSettings
  /-- How long the answers about notecards and agents take. -/
  answerDelay : Nat
  notecards : NameMap (List String)
  notecardFolder : Option String
  sensor : SensorSettings

namespace Settings

def defaultPosition : Vector3 := ⟨128, 128, 20⟩

def defaultObject : ObjectSettings :=
  ⟨"Object", "", none, none, "Owner", defaultPosition, Rotation.identity, "Sandbox",
    "New Script"⟩

def defaultRequests : RequestSettings := ⟨.stub, 60000, 5, []⟩

def defaultSensor : SensorSettings := ⟨16, []⟩

def default : Settings :=
  ⟨1000000, 256, 64, 5, 1000, false, defaultObject, defaultRequests, 10, [], none,
    defaultSensor⟩

instance : Inhabited Settings := ⟨default⟩

end Settings

end PrimScript
