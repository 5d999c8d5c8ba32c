import PrimScript.Clock.Span
import PrimScript.World.Basic

/-! Alarms: the timer, the repeated sweep, and the answers to requests.  Time passes from alarm to
alarm, by whole milliseconds; an alarm goes off at the first millisecond that is not before the
time it is due. -/

namespace PrimScript

namespace Task

def isTimer : Task → Bool
  | .timer .. => true
  | _ => false

def isSweep : Task → Bool
  | .sweep .. => true
  | _ => false

end Task

namespace World

def setAlarm (w : World) (inLoop : Bool) (due : Nat) (task : Task) : World :=
  { w with alarms := w.alarms ++ [⟨due, w.alarmsSet, task, inLoop⟩], alarmsSet := w.alarmsSet + 1 }

/-- Sets an alarm for the end of a period, unless the clock cannot show that time. -/
def setPeriodic (w : World) (period : Nat) (task : Task) : World :=
  if w.around.uptime + w.now + period < Span.horizon then
    w.setAlarm w.looping (w.now + period) task
  else w

def cancelTimer (w : World) : World :=
  match w.timer with
  | none => w
  | some _ =>
    { w with
      timer := none
      queue := w.queue.erase .timer
      alarms := w.alarms.filter (!·.task.isTimer) }

def cancelSweep (w : World) : World :=
  if w.sweeping then
    { w with sweeping := false, alarms := w.alarms.filter (!·.task.isSweep) }
  else w

/-- Stops what goes off by itself, except for answers that are under way. -/
def quiet (w : World) : World := w.cancelTimer.cancelSweep

/-- The main loop ends, and what was asked for while it ran goes with it. -/
def endLoop (w : World) : World :=
  { w with
    looping := false
    alarms := w.alarms.filter (!·.inLoop)
    dropped := w.dropped.append (w.alarms.filter (·.inLoop)) }

def services (w : World) : List (String × Bool) :=
  [("timer", w.timer.isSome), ("sensor", w.sweeping), ("http", false), ("dataserver", false)]

/-- The period that a number of seconds asks for, which is at least a millisecond; none when it
is too long. -/
def period? (seconds : Float) : Option Nat := (Span.ofSeconds? seconds).map (max Span.milli)

/-- Sets the timer, or unsets it when the seconds ask for no span.  None when they are too
many. -/
def setTimer? (w : World) (seconds : Float) : Option World :=
  let w := w.cancelTimer
  if Span.isAsked seconds then
    (period? seconds).map fun period =>
      { w.setPeriodic period (.timer period w.queue.epoch w.entered) with timer := some period }
  else some w

theorem setTimer?_zero (w : World) : w.setTimer? 0 = some w.cancelTimer := by
  have h : Span.isAsked 0 = false := by decide
  simp [setTimer?, h]

theorem of_setTimer? {w w' : World} {seconds : Float} (h : w.setTimer? seconds = some w') :
    w' = w.cancelTimer ∨ Span.isAsked seconds ∧ ∃ period, period? seconds = some period ∧
      w' = { w.cancelTimer.setPeriodic period
          (.timer period w.cancelTimer.queue.epoch w.cancelTimer.entered) with timer := some period } := by
  unfold setTimer? at h
  dsimp only at h
  split at h
  · next ha =>
    obtain ⟨period, hp, rfl⟩ := Option.map_eq_some_iff.1 h
    exact .inr ⟨ha, period, hp, rfl⟩
  · exact .inl (Option.some.inj h).symm

def repeatSweep? (w : World) (q : SensorQuery) (v : Vantage) (seconds : Float) : Option World :=
  let w := w.cancelSweep
  if Span.isAsked seconds then
    (period? seconds).map fun period =>
      { w.setPeriodic period (.sweep q v period w.queue.epoch w.entered) with sweeping := true }
  else some w

theorem of_repeatSweep? {w w' : World} {q : SensorQuery} {v : Vantage} {seconds : Float}
    (h : w.repeatSweep? q v seconds = some w') :
    w' = w.cancelSweep ∨ Span.isAsked seconds ∧ ∃ period, period? seconds = some period ∧
      w' = { w.cancelSweep.setPeriodic period
          (.sweep q v period w.cancelSweep.queue.epoch w.cancelSweep.entered) with sweeping := true } := by
  unfold repeatSweep? at h
  dsimp only at h
  split at h
  · next ha =>
    obtain ⟨period, hp, rfl⟩ := Option.map_eq_some_iff.1 h
    exact .inr ⟨ha, period, hp, rfl⟩
  · exact .inl (Option.some.inj h).symm

def answerAfter (w : World) (millis : Nat) (e : Event) : World :=
  w.setAlarm w.looping (w.now + Span.ofMillis millis) (.answer e)

/-- Pushes the event of a periodic alarm, unless one of those kinds is still pending, and says
whether the alarm goes on.  It ends when its epoch has passed or the queue is closed. -/
def tick (w : World) (kinds : List EventKind) (epoch : Nat) (event : Event) : Bool × World :=
  if kinds.any w.queue.contains then (true, w)
  else
    match w.pushIn .tick epoch event with
    | (.ok (), w) => (true, w)
    | (.error (.full _ _), w) => (true, w)
    | (.error _, w) => (false, w)

def noteAttempt (w : World) (a : Alarm) (e : Event) : World :=
  { w with attempts := w.attempts.push ⟨a, w.now, w.queue, e⟩ }

/-- What happens when an alarm goes off; the alarm itself is no longer set. -/
def goOff (w : World) (a : Alarm) : World :=
  match a.task with
  | .answer e => ((w.noteAttempt a e).push .answer e).2
  | .timer period epoch asked =>
    match w.tick [.timer] epoch ((Event.ofKind .timer []).askedAt asked) with
    | (true, w) => w.setAlarm a.inLoop (a.due + period) a.task
    | (false, w) => w
  | .sweep q v period epoch asked =>
    match w.tick [.sensor, .noSensor] epoch ((sweepEvent (w.scan q v)).askedAt asked) with
    | (true, w) => w.setAlarm a.inLoop (a.due + period) a.task
    | (false, w) => w

def Alarm.before (a b : Alarm) : Bool :=
  let s := Span.nextMilli a.due
  let t := Span.nextMilli b.due
  s < t || (s == t && a.order < b.order)

def nextAlarm? (w : World) : Option Alarm :=
  w.alarms.foldl (fun first a =>
    match first with
    | none => some a
    | some b => if Alarm.before a b then some a else some b) none

def fire (w : World) (a : Alarm) : World :=
  let w := { w with
    alarms := w.alarms.filter (·.order ≠ a.order)
    now := max w.now (Span.nextMilli a.due) }
  w.goOff a

def fireBefore (stop : Nat) : (fuel : Nat) → World → World
  | 0, w => w
  | fuel + 1, w =>
    match w.nextAlarm? with
    | none => w
    | some a =>
      if Span.nextMilli a.due < stop then fireBefore stop fuel (w.fire a) else w

/-- Steps enough for all alarms that go off before `stop`: each does so at most once a
millisecond. -/
def firings (w : World) (stop : Nat) : Nat := w.alarms.length * ((stop - w.now) / Span.milli + 2)

/-- The world after something has happened in it.  Events from outside have normal priority, and the
script has not asked for them. -/
def undergo (w : World) : Outside → World
  | .alarm order =>
    match w.alarms.find? (·.order = order) with
    | some a => w.fire a
    | none => w
  | .elapse span => { w with now := w.now + span }
  | .inject e => (w.enqueue .outside { e with high := false, asked := none }).2
  | .place e => { w with region := w.region.place e }
  | .close => { w with queue := w.queue.close }.quiet

/-- The world when the library is called next, or while a pause lasts. -/
def meanwhile (w : World) : World :=
  match w.outside with
  | [] => w
  | happenings :: rest => happenings.foldl undergo { w with outside := rest }

/-- The world after a pause; alarms due at the very end of the pause are still to go off. -/
def pause (w : World) (span : Nat) : World :=
  let wake := Span.nextMilli (w.now + span)
  let w := w.meanwhile
  let w := fireBefore wake (w.firings wake) w
  { w with now := max w.now wake }

/-- The world at a later time; alarms due at that time have gone off. -/
def passTo (w : World) (time : Nat) : World :=
  let w := fireBefore (time + 1) (w.firings (time + 1)) w
  { w with now := max w.now time }

def pass (w : World) (millis : Nat) : World := w.passTo (w.now + Span.ofMillis millis)

end World

end PrimScript
