import PrimScript.Engine.Basic

/-! Engines in time: events run as soon as they are pending, and time passes from alarm to alarm
while none is.  A script may go on for ever, so every run is given a number of turns. -/

namespace PrimScript.Engine

/-- Runs pending events, and what is due by now, until nothing is left to do. -/
def settle : (turns : Nat) → Engine → Engine
  | 0, g => g
  | turns + 1, g =>
    let g := g.mapWorld fun w => w.passTo w.now
    match g.turn? with
    | some g => settle turns g
    | none => g

/-- Goes on from alarm to alarm until `done` is satisfied, or nothing more is due before the time
`stop`, if one is given. -/
def runUntil (done : Engine → Bool) (stop : Option Nat) : (turns : Nat) → Engine → Engine
  | 0, g => g
  | turns + 1, g =>
    let g := g.settle (turns + 1)
    if done g then g
    else
      match g.world.nextAlarm? with
      | none => g
      | some a =>
        let due := Span.nextMilli a.due
        if stop.any (· < due) then g
        else runUntil done stop turns (g.mapWorld (·.passTo due))

def runFor (span turns : Nat) (g : Engine) : Engine :=
  runUntil (fun _ => false) (some (g.world.now + span)) turns g

end PrimScript.Engine
