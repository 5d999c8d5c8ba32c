import PrimScript.Clock.Calendar
import PrimScript.Library.Function

/-! Functions for the timer, for pauses and for the time. -/

namespace PrimScript.Library

open LibraryFunction

/-- Sets the timer.  That the seconds are too many is only noticed when it has been unset. -/
def setTimerEvent : LibraryFunction where
  name := "llSetTimerEvent"
  params := [.float]
  returns := none
  effect := .sideEffect
  run c w :=
    match w.setTimer? (c.float 0) with
    | some w => (.void, w)
    | none => (.overlong, w.cancelTimer)

/-- Pauses the caller; not at all when the seconds ask for no span. -/
def sleep : LibraryFunction where
  name := "llSleep"
  params := [.float]
  returns := none
  effect := .sleeping
  run c w :=
    let seconds := c.float 0
    if Span.isAsked seconds then
      match Span.ofSeconds? seconds with
      | some span => (.pause span, w)
      | none => (.overlong, w)
    else (.void, w)

def scriptTime (w : World) : Float := Span.toSeconds (w.now - w.resetAt)

def resetTime (w : World) : World := { w with resetAt := w.now }

/-- The nanoseconds since the beginning of 1970, when the world began in 2024. -/
def calendarTime (w : World) : Nat := 1704067200 * Span.second + w.now

def calendarSeconds (w : World) : Nat := calendarTime w / Span.second

def daySeconds : Nat := 86400

def date (w : World) : List Char := (Calendar.ofDays (calendarSeconds w / daySeconds)).chars

def timestamp (w : World) : List Char :=
  let micros := calendarTime w % Span.second / 1000
  date w ++ 'T' :: Calendar.timeChars (calendarSeconds w % daySeconds) micros ++ ['Z']

def time : List LibraryFunction :=
  [setTimerEvent, sleep,
   reading "llGetTime" [] .float fun _ w => .float (scriptTime w),
   acting "llResetTime" [] fun _ w => resetTime w,
   ⟨"llGetAndResetTime", [], some .float, .sideEffect,
     fun _ w => (.float (scriptTime w), resetTime w)⟩,
   reading "llGetUnixTime" [] .integer fun _ w => .integer (Int32.ofNat (calendarSeconds w)),
   reading "llGetTimestamp" [] .string fun _ w => .chars (timestamp w),
   reading "llGetDate" [] .string fun _ w => .chars (date w),
   reading "llGetGMTclock" [] .float fun _ w =>
     .float (Span.toSeconds (calendarTime w % (daySeconds * Span.second)))]

end PrimScript.Library
