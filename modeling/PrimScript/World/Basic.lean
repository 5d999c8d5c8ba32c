import PrimScript.Chat.Listener
import PrimScript.Chat.Message
import PrimScript.Diagnostic
import PrimScript.Event.Queue
import PrimScript.Region.Sweep
import PrimScript.Text.Search
import PrimScript.World.Surroundings

/-! The world a script acts on: the object it lives in, the region around it, the event queue, what
has been said and reported, and what is due to happen. -/

namespace PrimScript

structure Object where
  name : String
  description : String
  key : String
  ownerKey : String
  ownerName : String
  position : Vector3
  rotation : Rotation
  region : String
  scriptName : String
  /-- The text that floats above the object. -/
  text : String

structure Permissions where
  mask : Int32
  agent : String

/-- What happens when an alarm goes off.  Timers and repeated sweeps belong to the epoch they were
asked for in, and go off again after their period; the states entered by the time they were asked for
are noted with them. -/
inductive Task
  | timer (period epoch : Nat) (asked : History String) : Task
  | sweep (query : SensorQuery) (vantage : Vantage) (period epoch : Nat)
    (asked : History String) : Task
  | answer (event : Event) : Task

structure Alarm where
  /-- When it is due, in nanoseconds. -/
  due : Nat
  /-- Of alarms due together those set first go off first. -/
  order : Nat
  task : Task
  /-- Was it asked for while the main loop ran? -/
  inLoop : Bool

/-- An attempt to bring an answer to the queue: the alarm it was due with, when it came, and the queue as
it was found. -/
structure Attempt where
  alarm : Alarm
  time : Nat
  queue : EventQueue
  event : Event

inductive Producer
  | outside : Producer
  /-- A function of the library, but not a sweep. -/
  | function : Producer
  /-- A sweep made at once. -/
  | sweep : Producer
  /-- The timer or a repeated sweep. -/
  | tick : Producer
  /-- The answer to a request. -/
  | answer : Producer
  /-- The entry into a state. -/
  | entry : Producer
  deriving DecidableEq, Repr

/-- An event brought to the queue, and why it was not accepted if it was not. -/
structure Push where
  producer : Producer
  event : Event
  refusal : Option EventError

/-- What happens in the world without the script doing it. -/
inductive Outside
  /-- The alarm set with that number goes off. -/
  | alarm (order : Nat) : Outside
  | elapse (span : Nat) : Outside
  | inject (e : Event) : Outside
  | place (e : Entity) : Outside
  | close : Outside

structure World where
  settings : Settings
  around : Surroundings
  object : Object
  queue : EventQueue
  listeners : Listeners
  region : Region
  /-- The period of the timer, when it is set. -/
  timer : Option Nat
  /-- Is a repeated sweep going on? -/
  sweeping : Bool
  alarms : List Alarm
  /-- How many alarms have been set so far. -/
  alarmsSet : Nat
  /-- The time in nanoseconds. -/
  now : Nat
  /-- When the script's own clock was last reset. -/
  resetAt : Nat
  permissions : Permissions
  chat : Array ChatMessage
  diagnostics : Array Diagnostic
  /-- How many fresh keys have been given out. -/
  keysGiven : Nat
  /-- How many numbers have been drawn. -/
  drawn : Nat
  /-- Is the main loop of the script going on? -/
  looping : Bool
  /-- What happens before each of the next calls of the library, and during pauses. -/
  outside : List (List Outside)
  /-- The states that were gone over to. -/
  entered : History String
  /-- The answers that have come. -/
  attempts : History Attempt
  /-- The events that were brought to the queue. -/
  pushes : History Push
  /-- The alarms that went with the main loop. -/
  dropped : History Alarm

namespace World

def freshKey (w : World) : String × World :=
  (w.around.keys.key w.keysGiven, { w with keysGiven := w.keysGiven + 1 })

def keyOr (w : World) : Option String → String × World
  | some k => (Key.normalize k, w)
  | none => w.freshKey

def placeSettings (w : World) (e : EntitySettings) : World :=
  let (key, w) := w.keyOr e.key
  let entity : Entity :=
    ⟨e.name, key, key, e.type, e.position, Rotation.identity, Vector3.zero⟩
  { w with region := w.region.insert key entity }

def ofSettings (s : Settings) (around : Surroundings) : World :=
  let o := s.object
  let object : Object :=
    ⟨o.name, o.description, Key.null, Key.null, o.ownerName, o.position, o.rotation, o.region,
      o.scriptName, ""⟩
  let w : World :=
    ⟨s, around, object, .empty s.queueCapacity, .empty, [], none, false, [], 0, 0, 0,
      ⟨0, Key.null⟩, #[], #[], 0, 0, false, [], .empty, .empty, .empty, .empty⟩
  let w := s.sensor.entities.foldl placeSettings w
  let (key, w) := w.keyOr o.key
  let (ownerKey, w) := w.keyOr o.ownerKey
  { w with object := { object with key := key, ownerKey := ownerKey } }

def report (w : World) (kind : DiagnosticKind) (message : String) : World :=
  { w with diagnostics := w.diagnostics.push ⟨kind, message⟩ }

def send (w : World) (channel : Int32) (text : String) (volume : Volume)
    (target : Option String) : World :=
  { w with chat := w.chat.push ⟨channel, w.object.name, text, volume, target⟩ }

def say (w : World) (channel : Int32) (text : String) (volume : Volume) : World :=
  w.send channel text volume none

def tell (w : World) (target : String) (channel : Int32) (text : String) : World :=
  w.send channel text .direct (some (Key.normalize target))

def accept (w : World) (p : Producer) (e : Event) (q : EventQueue) : World :=
  { w with queue := q, pushes := w.pushes.push ⟨p, e, none⟩ }

def refuse (w : World) (p : Producer) (e : Event) (x : EventError) : World :=
  { w with queue := w.queue.refuse e x, pushes := w.pushes.push ⟨p, e, some x⟩ }

def notePush (w : World) (p : Producer) (e : Event) :
    Except EventError Unit × EventQueue → Except EventError Unit × World
  | (.ok (), q) => (.ok (), w.accept p e q)
  | (.error x, q) => (.error x, { w with queue := q, pushes := w.pushes.push ⟨p, e, some x⟩ })

/-- Everyone who brings an event to the queue does so with this push or the next one. -/
def push (w : World) (p : Producer) (e : Event) : Except EventError Unit × World :=
  w.notePush p e (w.queue.push e)

def pushIn (w : World) (p : Producer) (epoch : Nat) (e : Event) : Except EventError Unit × World :=
  w.notePush p e (w.queue.pushIn epoch e)

/-- Pushes an event, and says whether it was accepted.  That it did not fit is reported. -/
def enqueue (w : World) (p : Producer) (e : Event) : Bool × World :=
  match w.push p e with
  | (.ok (), w) => (true, w)
  | (.error (.full kind capacity), w) =>
    (false, w.report .queueOverflow (EventError.full kind capacity).message)
  | (.error _, w) => (false, w)

def vantage (w : World) : Vantage := ⟨w.object.position, w.object.rotation⟩

/-- The name that belongs to a key: the object's, its owner's, or an entity's; empty when the key
is not known. -/
def nameOf (w : World) (key : String) : String :=
  let key := Key.normalize key
  if key = w.object.key then w.object.name
  else if key = w.object.ownerKey then w.object.ownerName
  else ((w.region.entity? key).map (·.name)).getD ""

def scan (w : World) (q : SensorQuery) (v : Vantage) : List Entity :=
  sweep w.region.entities q v w.settings.sensor.maxResults

/-- The lines of a notecard: of one in the settings, or of a file in the folder, with `.txt`
after its name or not.  A name that could lead out of the folder is no file's. -/
def notecard? (w : World) (name : String) : Option (List String) :=
  match w.settings.notecards.find? name with
  | some lines => some lines
  | none =>
    let cs := name.toList
    if cs.contains '/' || cs.contains '\\' || (Text.indexOf? ['.', '.'] cs).isSome then none
    else
      ((w.around.folder.find? name).or (w.around.folder.find? (name ++ ".txt"))).map fun text =>
        (Text.lines text.toList).map String.ofList

theorem fst_push (w : World) (p : Producer) (e : Event) : (w.push p e).1 = (w.queue.push e).1 := by
  unfold push notePush
  split <;> next h => rw [h]

theorem push_cases (w : World) (p : Producer) (e : Event) :
    (∃ q, w.queue.receive e = .ok q ∧ w.push p e = (.ok (), w.accept p e q)) ∨
      ∃ x, w.queue.receive e = .error x ∧ w.push p e = (.error x, w.refuse p e x) := by
  unfold push
  rcases w.queue.push_cases e with ⟨q, hq, hp⟩ | ⟨x, hq, hp⟩
  · exact .inl ⟨q, hq, by rw [hp, notePush]⟩
  · exact .inr ⟨x, hq, by rw [hp, notePush, refuse]⟩

theorem push_of_receive {w : World} {p : Producer} {e : Event} {q : EventQueue}
    (hq : w.queue.receive e = .ok q) : w.push p e = (.ok (), w.accept p e q) := by
  rcases w.push_cases p e with ⟨q', hq', hp⟩ | ⟨x, hx, -⟩
  · cases hq.symm.trans hq'
    exact hp
  · cases hq.symm.trans hx

theorem push_of_receive_error {w : World} {p : Producer} {e : Event} {x : EventError}
    (hx : w.queue.receive e = .error x) : w.push p e = (.error x, w.refuse p e x) := by
  rcases w.push_cases p e with ⟨q, hq, -⟩ | ⟨y, hy, hp⟩
  · cases hx.symm.trans hq
  · cases hx.symm.trans hy
    exact hp

theorem pushIn_cases (w : World) (p : Producer) (epoch : Nat) (e : Event) :
    (w.queue.epoch = epoch ∧ w.pushIn p epoch e = w.push p e) ∨
      (w.queue.epoch ≠ epoch ∧
        w.pushIn p epoch e = (.error (.stale e.kind epoch), w.refuse p e (.stale e.kind epoch))) := by
  unfold pushIn
  rcases w.queue.pushIn_cases epoch e with ⟨h, hp⟩ | ⟨h, hp⟩
  · exact .inl ⟨h, by rw [hp, push]⟩
  · exact .inr ⟨h, by rw [hp, notePush, refuse]⟩

end World

end PrimScript
