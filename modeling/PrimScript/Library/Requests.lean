import PrimScript.Constant
import PrimScript.Library.Function

/-! Functions whose result is answered by an event. -/

namespace PrimScript.Library

open LibraryFunction

/-- The request as options have it, which are numbers and values in turn; the last number may lack its
value. -/
def withOptions (r : HttpRequest) : List Value → HttpRequest
  | option :: value :: rest =>
    let text := String.ofList value.chars
    let r :=
      if option.asInteger = 0 then { r with method := text }
      else if option.asInteger = 1 then { r with mimeType := text }
      else r
    withOptions r rest
  | _ => r

def replyTo (w : World) (r : HttpRequest) : Nat × HttpReply :=
  let s := w.settings.requests
  match s.mode with
  | .stub => (s.latency, (s.replies.find? r.address).getD ⟨404, "Not Found"⟩)
  | .live => w.around.network w.keysGiven r

def httpRequest : LibraryFunction where
  name := "llHTTPRequest"
  params := [.string, .list, .string]
  returns := some .key
  effect := .answers .httpResponse
  run c w :=
    let (id, w) := w.freshKey
    let request := { HttpRequest.get (c.string 0) with body := c.string 2 }
    let (delay, reply) := replyTo w (withOptions request (c.list 1))
    let event := Event.ofKind .httpResponse
      [.ofKey id, .integer reply.status, .list [], .string reply.body]
    (.value (.key id), w.answerAfter delay event)

def answering (w : World) (id : String) (text : String) : Reply × World :=
  (.value (.key id),
    w.answerAfter w.settings.answerDelay (.ofKind .dataserver [.ofKey id, .string text]))

def linesOrTell (w : World) (name : String) : Option (List String) × World :=
  match w.notecard? name with
  | some lines => (some lines, w)
  | none => (none, w.say Constant.debugChannel s!"Couldn't find notecard {name}" .say)

/-- A line by its number; after the last line comes the end. -/
def lineAt (lines : List String) (i : Int32) : String :=
  if i < 0 then Constant.endOfNotecard
  else (lines[i.toInt.toNat]?).getD Constant.endOfNotecard

def getNotecardLine : LibraryFunction where
  name := "llGetNotecardLine"
  params := [.string, .integer]
  returns := some .key
  effect := .answers .dataserver
  run c w :=
    let (id, w) := w.freshKey
    let (lines, w) := linesOrTell w (c.string 0)
    answering w id (lineAt (lines.getD []) (c.integer 1))

def getNumberOfNotecardLines : LibraryFunction where
  name := "llGetNumberOfNotecardLines"
  params := [.string]
  returns := some .key
  effect := .answers .dataserver
  run c w :=
    let (id, w) := w.freshKey
    match linesOrTell w (c.string 0) with
    | (some lines, w) =>
      answering w id (String.ofList (Decimal.integerText lines.length))
    | (none, w) => answering w id Constant.endOfNotecard

def agentData? (name : String) (question : Int32) : Option String :=
  if question = 1 then some (if name = "" then "0" else "1")
  else if question = 2 then some name
  else if question = 3 then some "2006-01-01"
  else if question = 4 then some "0,0,0,0,0,0"
  else if question = 8 then some "0"
  else none

def requestAgentData : LibraryFunction where
  name := "llRequestAgentData"
  params := [.key, .integer]
  returns := some .key
  effect := .answers .dataserver
  run c w :=
    let (id, w) := w.freshKey
    match agentData? (w.nameOf (c.string 0)) (c.integer 1) with
    | some text => answering w id text
    | none => (.invalid s!"unsupported data request {(c.integer 1).toInt}", w)

/-- Every request for permissions is granted at once. -/
def requestPermissions : LibraryFunction where
  name := "llRequestPermissions"
  params := [.key, .integer]
  returns := none
  effect := .answers .runTimePermissions
  run c w :=
    let mask := c.integer 1
    let w := { w with permissions := ⟨mask, Key.normalize (c.string 0)⟩ }
    (.void, (w.enqueue .function (.ofKind .runTimePermissions [.integer mask])).2)

/-- Does a message for a link number reach this script?  The object has one part only. -/
def reachesLink (target : Int32) : Bool := target == -1 || target == -4 || target == 0

def messageLinked : LibraryFunction where
  name := "llMessageLinked"
  params := [.integer, .integer, .string, .key]
  returns := none
  effect := .answers .linkMessage
  run c w :=
    if reachesLink (c.integer 0) then
      (.void, (w.enqueue .function (.ofKind .linkMessage
        [.integer 0, .integer (c.integer 1), .string (c.string 2), .ofKey (c.string 3)])).2)
    else (.void, w)

def requests : List LibraryFunction :=
  [httpRequest, getNotecardLine, getNumberOfNotecardLines, requestAgentData, requestPermissions,
   reading "llGetPermissions" [] .integer fun _ w => .integer w.permissions.mask,
   reading "llGetPermissionsKey" [] .key fun _ w =>
     .value (.key (if w.permissions.mask = 0 then Key.null else w.permissions.agent)),
   messageLinked]

end PrimScript.Library
