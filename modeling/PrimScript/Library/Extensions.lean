import PrimScript.Constant
import PrimScript.Library.Requests
import PrimScript.Pattern.Match
import PrimScript.Pattern.Parse

/-! Functions beyond the common ones: notecards read at once, patterns, and texts put together. -/

namespace PrimScript.Library

open LibraryFunction

def linesOrReport (w : World) (name : String) : Option (List String) × World :=
  match w.notecard? name with
  | some lines => (some lines, w)
  | none => (none, w.report .asyncFailure s!"notecard `{name}` not found")

def notecardReader (name : String) (params : List ValueType) (returns : ValueType)
    (f : Call → Option (List String) → Reply) : LibraryFunction where
  name := name
  params := params
  returns := some returns
  effect := .sideEffect
  run c w :=
    let (lines, w) := linesOrReport w (c.string 0)
    (f c lines, w)

def joinedLines (lines : List String) : List Char :=
  Text.joinWith ['\n'] (lines.map String.toList)

def regexIsMatch (c : Call) : Reply :=
  match Pattern.parse? (c.chars 1) with
  | some p => .bool (p.isMatch (c.chars 0))
  | none => .invalid "not a pattern"

def placeholder (i : Nat) : List Char := '\x7b' :: Nat.toDigits 10 i ++ ['\x7d']

/-- The format with the placeholders of the arguments replaced by their texts, one argument after
the other. -/
def formatFrom (i : Nat) : (args : List (List Char)) → (format : List Char) → List Char
  | [], format => format
  | arg :: args, format => formatFrom (i + 1) args (Text.replaceAll (placeholder i) arg format)

def simulatorVersion : String := "linden 0.1.0"

def extensions : List LibraryFunction :=
  [notecardReader "osGetNotecard" [.string] .string fun _ lines =>
     .chars (joinedLines (lines.getD [])),
   notecardReader "osGetNotecardLine" [.string, .integer] .string fun c lines =>
     .string (lineAt (lines.getD []) (c.integer 1)),
   notecardReader "osGetNumberOfNotecardLines" [.string] .integer fun _ lines =>
     .integer (Int32.ofNat (lines.getD []).length),
   reading "osKey2Name" [.key] .string fun c w => .string (w.nameOf (c.string 0)),
   ofPure "osIsUUID" [.string] .integer fun c =>
     .bool (Key.isValid (String.ofList (Text.trim (c.chars 0)))),
   ofPure "osRegexIsMatch" [.string, .string] .integer regexIsMatch,
   ofPure "osFormatString" [.string, .list] .string fun c =>
     .chars (formatFrom 0 ((c.list 1).map Value.chars) (c.chars 0)),
   ofPure "osGetSimulatorVersion" [] .string fun _ => .string simulatorVersion]

end PrimScript.Library
