import PrimScript.Library.Function
import PrimScript.Slice
import PrimScript.Text.Case
import PrimScript.Text.Escape
import PrimScript.Text.Tokens

/-! Functions for texts.  Places in a text count characters. -/

namespace PrimScript.Library

open LibraryFunction

def insertString (dst : List Char) (i : Int32) (src : List Char) : List Char :=
  let p := min (if i < 0 then 0 else i.toInt.toNat) dst.length
  dst.take p ++ src ++ dst.drop p

def subStringIndex (src pattern : List Char) : Int32 :=
  match Text.indexOf? pattern src with
  | some i => Int32.ofNat i
  | none => -1

/-- The first bit of the mode trims the start of a text, the second one its end. -/
def trimString (cs : List Char) (mode : Int32) : List Char :=
  let cs := if mode &&& 1 != 0 then Text.trimStart cs else cs
  if mode &&& 2 != 0 then Text.trimEnd cs else cs

/-- Which of `total` occurrences are replaced: the first ones for a positive count, the last ones
for a negative one, all for zero. -/
def isChosen (total : Nat) (count : Int32) (i : Nat) : Bool :=
  let n := count.toInt
  if n = 0 then true else if 0 < n then i < n else total ≤ i + n.natAbs

def rejoin (pattern replacement : List Char) (chosen : Nat → Bool) :
    (i : Nat) → List (List Char) → List Char
  | _, [] => []
  | i, piece :: pieces =>
    (if chosen i then replacement else pattern) ++ piece ++
      rejoin pattern replacement chosen (i + 1) pieces

def replaceSubString (src pattern replacement : List Char) (count : Int32) : List Char :=
  if pattern = [] then src
  else
    let (piece, pieces) := Text.cutAt pattern 0 src
    piece ++ rejoin pattern replacement (isChosen pieces.length count) 0 pieces

def textsOf (vs : List Value) : List (List Char) := vs.map Value.chars

def stringsOf (texts : List (List Char)) : Reply :=
  .list (texts.map fun cs => .string (String.ofList cs))

def ofText (name : String) (f : List Char → List Char) : LibraryFunction :=
  ofPure name [.string] .string fun c => .chars (f (c.chars 0))

def cutting (name : String) (f : List Char → Int32 → Int32 → List Char) : LibraryFunction :=
  ofPure name [.string, .integer, .integer] .string fun c =>
    .chars (f (c.chars 0) (c.integer 1) (c.integer 2))

def parsing (name : String)
    (f : List (List Char) → List (List Char) → List Char → List (List Char)) :
    LibraryFunction :=
  ofPure name [.string, .list, .list] .list fun c =>
    stringsOf (f (textsOf (c.list 1)) (textsOf (c.list 2)) (c.chars 0))

def texts : List LibraryFunction :=
  [ofPure "llStringLength" [.string] .integer fun c => .integer (Int32.ofNat (c.chars 0).length),
   cutting "llGetSubString" Slice.keep,
   cutting "llDeleteSubString" Slice.drop,
   ofPure "llInsertString" [.string, .integer, .string] .string fun c =>
     .chars (insertString (c.chars 0) (c.integer 1) (c.chars 2)),
   ofPure "llSubStringIndex" [.string, .string] .integer fun c =>
     .integer (subStringIndex (c.chars 0) (c.chars 1)),
   ofText "llToUpper" Text.upper,
   ofText "llToLower" Text.lower,
   ofPure "llStringTrim" [.string, .integer] .string fun c =>
     .chars (trimString (c.chars 0) (c.integer 1)),
   ofPure "llReplaceSubString" [.string, .string, .string, .integer] .string fun c =>
     .chars (replaceSubString (c.chars 0) (c.chars 1) (c.chars 2) (c.integer 3)),
   ofPure "llDumpList2String" [.list, .string] .string fun c =>
     .chars (Text.joinWith (c.chars 1) (textsOf (c.list 0))),
   parsing "llParseString2List" Text.someTokens,
   parsing "llParseStringKeepNulls" Text.tokens,
   ofPure "llList2CSV" [.list] .string fun c =>
     .chars (Text.joinWith [',', ' '] (textsOf (c.list 0))),
   ofPure "llCSV2List" [.string] .list fun c => stringsOf (Text.fields (c.chars 0)),
   ofText "llEscapeURL" Text.escape,
   ofText "llUnescapeURL" Text.unescape]

end PrimScript.Library
