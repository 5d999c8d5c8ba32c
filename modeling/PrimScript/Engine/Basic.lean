import PrimScript.Eval.Run
import PrimScript.StateMachine

/-! Engines: a script with the machine it runs on and the state it is in.  Events run one at a time,
each to its end.  A change of state drops what is pending, and what the old state has set up for
later, before the new state is entered. -/

namespace PrimScript

inductive EngineStatus
  | created : EngineStatus
  | running : EngineStatus
  /-- Running, but stuck in a handler that does not come to an end. -/
  | stuck : EngineStatus
  | stopped : EngineStatus
  | failed : EngineStatus
  deriving DecidableEq, Repr

def EngineStatus.name : EngineStatus → String
  | .created => "Created"
  | .running => "Running"
  | .stuck => "Running"
  | .stopped => "Stopped"
  | .failed => "Failed"

inductive EngineError
  | alreadyStarted : EngineError
  | notRunning : EngineError
  | halt (h : Halt) : EngineError
  | event (e : EventError) : EngineError
  deriving DecidableEq, Repr

def EngineError.message : EngineError → String
  | .alreadyStarted => "Engine already started"
  | .notRunning => "Engine is not running"
  | .halt (.error e) => s!"Eval error: {e.message}"
  | .halt .overlong => "A handler does not come to an end"
  | .event e => s!"Event error: {e.message}"

structure Engine where
  machine : Machine
  states : StateMachine
  status : EngineStatus

def Event.entry : Event := { ofKind .stateEntry [] with high := true }

namespace World

def setQueue (w : World) (q : EventQueue) : World := { w with queue := q }

def dropListeners (w : World) : World :=
  if w.settings.clearsListeners then { w with listeners := w.listeners.clear } else w

def leaveState (w : World) : World := (w.setQueue w.queue.nextEpoch).quiet.dropListeners

def announceEntry (w : World) : World := (w.push .entry .entry).2

end World

namespace Engine

def ofScript (s : Script) (w : World) : Engine := ⟨.ofWorld w, .ofScript s, .created⟩

def script (g : Engine) : Script := g.states.script

def world (g : Engine) : World := g.machine.world

def mapWorld (g : Engine) (f : World → World) : Engine :=
  { g with machine := { g.machine with world := f g.machine.world } }

def fail (g : Engine) (e : EvalError) : Engine :=
  { g.mapWorld fun w => ((w.report .fatal e.message).setQueue w.queue.close).endLoop with
    status := .failed }

/-- The main loop ends in either case; of one that is stuck nobody takes note. -/
def halt (g : Engine) : Halt → Engine
  | .error e => g.fail e
  | .overlong => { g.mapWorld World.endLoop with status := .stuck }

def handle (g : Engine) (h : Handler) (e : Event) : Except Halt (Option String) × Engine :=
  let (result, machine) := g.machine.handle g.script h e
  (result, { g with machine := machine })

def enter (g : Engine) (target : String) : Engine :=
  { g.mapWorld fun w => { w with entered := w.entered.push target } with
    states := g.states.enter target }

def enterState (g : Engine) (target : String) : Engine :=
  ((g.mapWorld World.leaveState).enter target).mapWorld World.announceEntry

/-- Goes over to a state, unless it is the current one.  What the handler for the exit asks for does
not count. -/
def changeState (g : Engine) (target : String) : Except Halt Unit × Engine :=
  match g.states.check target with
  | .error e => (.error (.error e), g)
  | .ok false => (.ok (), g)
  | .ok true =>
    match g.states.handler? EventKind.stateExit.name with
    | none => (.ok (), g.enterState target)
    | some h =>
      match g.handle h (.ofKind .stateExit []) with
      | (.error e, g) => (.error e, g)
      | (.ok _, g) => (.ok (), g.enterState target)

/-- Runs the handler for an event, if there is one, and the change of state it asks for. -/
def dispatch (g : Engine) (e : Event) : Except Halt Unit × Engine :=
  match g.states.handler? e.kind.name with
  | none => (.ok (), g)
  | some h =>
    match g.handle h e with
    | (.error e, g) => (.error e, g)
    | (.ok none, g) => (.ok (), g)
    | (.ok (some target), g) => g.changeState target

def turn? (g : Engine) : Option Engine :=
  if g.status = .running then
    match g.world.queue.pop? with
    | none => none
    | some (e, q) =>
      match (g.mapWorld (·.setQueue q)).dispatch e with
      | (.ok (), g) => some g
      | (.error h, g) => some (g.halt h)
  else none

/-- Gives the global variables their values, queues the entry into the first state and starts the main
loop, unless the queue has been closed. -/
def start (g : Engine) : Except EngineError Unit × Engine :=
  if g.status = .created then
    match g.machine.bindGlobals g.script with
    | (.error h, machine) => (.error (.halt h), { g with machine := machine }.halt h)
    | (.ok (), machine) =>
      match machine.world.push .entry .entry with
      | (.error x, w) => (.error (.event x), { g with machine := { machine with world := w } })
      | (.ok (), w) =>
        (.ok (), { g with
          machine := { machine with world := { w with looping := true } }
          status := .running })
  else (.error .alreadyStarted, g)

/-- Drops what is pending and stops what goes off by itself.  The main loop still runs the handler it is
in. -/
def shutDown (g : Engine) : Engine :=
  let g := g.mapWorld fun w => (w.setQueue w.queue.close).quiet
  { g with status := if g.status = .failed then .failed else .stopped }

def stop (g : Engine) : Engine := g.shutDown.mapWorld World.endLoop

/-- Queues an event from outside.  That it does not fit is only reported. -/
def inject (g : Engine) (e : Event) : Except EngineError Unit × Engine :=
  match g.world.push .outside e with
  | (.ok (), w) => (.ok (), g.mapWorld fun _ => w)
  | (.error (.full kind capacity), w) =>
    (.ok (), g.mapWorld fun _ =>
      w.report .queueOverflow (EventError.full kind capacity).message)
  | (.error .closed, w) => (.error .notRunning, g.mapWorld fun _ => w)
  | (.error x, w) => (.error (.event x), g.mapWorld fun _ => w)

def injectNamed (g : Engine) (name : String) (args : List Value) (detected : List Entity) :
    Except EngineError Unit × Engine :=
  match Event.named name args with
  | .error e => (.error (.event e), g)
  | .ok e => g.inject (e.withDetected detected)

/-- Queues events, as long as they are not refused. -/
def injectAll (g : Engine) : List Event → Except EngineError Unit × Engine
  | [] => (.ok (), g)
  | e :: rest =>
    match g.inject e with
    | (.error e, g) => (.error e, g)
    | (.ok (), g) => g.injectAll rest

/-- Chat that is heard: an event for each listener that accepts it.  Gives how many do. -/
def hear (g : Engine) (channel : Int32) (name key message : String) :
    Except EngineError Nat × Engine :=
  let handles := g.world.listeners.matching channel name key message
  let event := Event.ofKind .listen
    [.integer channel, .string name, .ofKey key, .string message]
  match g.injectAll (handles.map fun _ => event) with
  | (.error e, g) => (.error e, g)
  | (.ok (), g) => (.ok handles.length, g)

def visitor (g : Engine) (name key : String) : Entity :=
  let p := g.world.object.position
  .avatar name key { p with x := p.x + 1 }

def touch (g : Engine) (name key : String) : Except EngineError Unit × Engine :=
  let event (kind : EventKind) := (Event.ofKind kind [.integer 1]).withDetected [g.visitor name key]
  g.injectAll [event .touchStart, event .touchEnd]

def place (g : Engine) (e : Entity) : Engine :=
  g.mapWorld fun w => { w with region := w.region.place e }

def sense (g : Engine) (name key : String) : Except EngineError Unit × Engine :=
  let visitor := g.visitor name key
  (g.place visitor).inject ((Event.ofKind .sensor [.integer 1]).withDetected [visitor])

@[simp] theorem status_mapWorld (g : Engine) (f : World → World) :
    (g.mapWorld f).status = g.status := rfl

@[simp] theorem world_mapWorld (g : Engine) (f : World → World) :
    (g.mapWorld f).world = f g.world := rfl

theorem turn?_eq_none_of_ne {g : Engine} (h : g.status ≠ .running) : g.turn? = none := by
  simp [turn?, h]

theorem toList_queue_fail (g : Engine) (e : EvalError) : (g.fail e).world.queue.toList = [] := rfl

end Engine

end PrimScript
