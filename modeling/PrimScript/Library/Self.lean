import PrimScript.Library.Function

/-! Functions for the object a script lives in, for names of keys, and for chance. -/

namespace PrimScript.Library

open LibraryFunction

def telling (name : String) (returns : ValueType) (f : Object → Reply) : LibraryFunction :=
  reading name [] returns fun _ w => f w.object

def changing (name : String) (param : ValueType) (f : Call → Object → Object) :
    LibraryFunction :=
  acting name [param] fun c w => { w with object := f c w.object }

def generateKey : LibraryFunction where
  name := "llGenerateKey"
  params := []
  returns := some .key
  effect := .sideEffect
  run _ w :=
    let (key, w) := w.freshKey
    (.value (.key key), w)

/-- A number from zero up to the argument, which is left out. -/
def frand : LibraryFunction where
  name := "llFrand"
  params := [.float]
  returns := some .float
  effect := .pure
  run c w := (.float (w.around.draws w.drawn * c.float 0), { w with drawn := w.drawn + 1 })

def self : List LibraryFunction :=
  [telling "llGetKey" .key fun o => .key o.key,
   telling "llGetOwner" .key fun o => .key o.ownerKey,
   telling "llGetObjectName" .string fun o => .string o.name,
   telling "llGetObjectDesc" .string fun o => .string o.description,
   telling "llGetPos" .vector fun o => .value (.vector o.position),
   telling "llGetRot" .rotation fun o => .value (.rotation o.rotation),
   telling "llGetRegionName" .string fun o => .string o.region,
   telling "llGetScriptName" .string fun o => .string o.scriptName,
   generateKey,
   changing "llSetObjectName" .string fun c o => { o with name := c.string 0 },
   changing "llSetObjectDesc" .string fun c o => { o with description := c.string 0 },
   changing "llSetPos" .vector fun c o => { o with position := c.vector 0 },
   changing "llSetRot" .rotation fun c o => { o with rotation := (c.rotation 0).normalize },
   reading "llKey2Name" [.key] .string fun c w => .string (w.nameOf (c.string 0)),
   frand]

end PrimScript.Library
