/-! Chat messages as the object sends them. -/

namespace PrimScript

/-- How far a message carries.  `text` is the text that floats above the object. -/
inductive Volume
  | whisper : Volume
  | say : Volume
  | shout : Volume
  | region : Volume
  | direct : Volume
  | text : Volume
  deriving DecidableEq, Repr

def Volume.name : Volume → String
  | .whisper => "whisper"
  | .say => "say"
  | .shout => "shout"
  | .region => "region"
  | .direct => "direct"
  | .text => "text"

structure ChatMessage where
  channel : Int32
  speaker : String
  text : String
  volume : Volume
  /-- The key of the one the message is for, when it is for one only. -/
  target : Option String

end PrimScript
