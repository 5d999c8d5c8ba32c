import PrimScript.Library.Extensions
import PrimScript.Library.Lists
import PrimScript.Library.Math
import PrimScript.Library.Self
import PrimScript.Library.Sensing
import PrimScript.Library.Speech
import PrimScript.Library.Texts
import PrimScript.Library.Time

/-! The whole library. -/

namespace PrimScript.Library

def all : List LibraryFunction :=
  speech ++ time ++ sensing ++ self ++ math ++ texts ++ lists ++ requests ++ extensions

def find? (name : String) : Option LibraryFunction := all.find? (·.name = name)

def names : List String := (NameMap.ofList (all.map fun f => (f.name, ()))).names

end PrimScript.Library
