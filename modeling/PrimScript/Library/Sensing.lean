import PrimScript.Library.Function

/-! Functions for sensor sweeps and for what an event has detected. -/

namespace PrimScript.Library

open LibraryFunction

def queryOf (c : Call) : SensorQuery :=
  ⟨c.string 0, c.string 1, c.integer 2, c.float 3, c.float 4⟩

/-- Sweeps once.  That the result is not accepted is reported, whatever the reason. -/
def sensor : LibraryFunction where
  name := "llSensor"
  params := [.string, .key, .integer, .float, .float]
  returns := none
  effect := .answers .sensor
  run c w :=
    let event := (sweepEvent (w.scan (queryOf c) w.vantage)).askedAt w.entered
    match w.push .sweep event with
    | (.ok (), w) => (.void, w)
    | (.error x, w) => (.void, w.report .queueOverflow x.message)

def sensorRepeat : LibraryFunction where
  name := "llSensorRepeat"
  params := [.string, .key, .integer, .float, .float, .float]
  returns := none
  effect := .answers .sensor
  run c w :=
    match w.repeatSweep? (queryOf c) w.vantage (c.float 5) with
    | some w => (.void, w)
    | none => (.overlong, w.cancelSweep)

/-- A function that tells something of a detected entity; of one that is missing, what is known of
no entity. -/
def detecting (name : String) (returns : ValueType) (f : Entity → Reply) : LibraryFunction :=
  ofPure name [.integer] returns fun c => f (c.entity?.getD Entity.unknown)

def sensing : List LibraryFunction :=
  [sensor, sensorRepeat,
   acting "llSensorRemove" [] fun _ w => w.cancelSweep,
   detecting "llDetectedName" .string fun e => .string e.name,
   detecting "llDetectedKey" .key fun e => .key e.key,
   detecting "llDetectedOwner" .key fun e => .key e.owner,
   detecting "llDetectedType" .integer fun e => .integer e.type,
   detecting "llDetectedPos" .vector fun e => .value (.vector e.position),
   detecting "llDetectedRot" .rotation fun e => .value (.rotation e.rotation),
   detecting "llDetectedVel" .vector fun e => .value (.vector e.velocity)]

end PrimScript.Library
