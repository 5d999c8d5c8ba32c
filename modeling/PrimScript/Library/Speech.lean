import PrimScript.Library.Function
import PrimScript.Text.Utf8

/-! Functions for chat and for listeners. -/

namespace PrimScript.Library

open LibraryFunction

def chatLimit : Nat := 1024

def cut (cs : List Char) : String := String.ofList (Text.takeBytes chatLimit cs)

def saying (name : String) (volume : Volume) : LibraryFunction :=
  acting name [.integer, .string] fun c w => w.say (c.integer 0) (cut (c.chars 1)) volume

def regionSayTo : LibraryFunction :=
  acting "llRegionSayTo" [.key, .integer, .string] fun c w =>
    w.tell (c.string 0) (c.integer 1) (cut (c.chars 2))

def ownerSay : LibraryFunction :=
  acting "llOwnerSay" [.string] fun c w => w.tell w.object.ownerKey 0 (cut (c.chars 0))

def instantMessage : LibraryFunction :=
  acting "llInstantMessage" [.key, .string] fun c w => w.tell (c.string 0) 0 (cut (c.chars 1))

def setText : LibraryFunction :=
  acting "llSetText" [.string, .vector, .float] fun c w =>
    { w with object := { w.object with text := c.string 0 } }.say 0 (c.string 0) .text

def listen : LibraryFunction where
  name := "llListen"
  params := [.integer, .string, .key, .string]
  returns := some .integer
  effect := .sideEffect
  run c w :=
    let channel := c.integer 0
    match w.listeners.add? channel (c.string 1) (c.string 2) (c.string 3) with
    | some (handle, t) => (.integer handle, { w with listeners := t })
    | none =>
      (.integer (-1), w.report .listenerLimit
        s!"too many listeners, llListen on channel {channel.toInt} ignored")

def listenRemove : LibraryFunction :=
  acting "llListenRemove" [.integer] fun c w =>
    { w with listeners := w.listeners.remove (c.integer 0) }

def listenControl : LibraryFunction :=
  acting "llListenControl" [.integer, .integer] fun c w =>
    { w with listeners := w.listeners.setActive (c.integer 0) (c.integer 1 != 0) }

def speech : List LibraryFunction :=
  [saying "llSay" .say, saying "llShout" .shout, saying "llWhisper" .whisper,
   saying "llRegionSay" .region, regionSayTo, ownerSay, instantMessage, setText, listen,
   listenRemove, listenControl]

end PrimScript.Library
