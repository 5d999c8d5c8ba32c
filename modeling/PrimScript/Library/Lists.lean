import PrimScript.Library.Function
import PrimScript.Slice
import PrimScript.Value.Sort

/-! Functions for lists. -/

namespace PrimScript.Library

open LibraryFunction

def element? (c : Call) : Option Value :=
  let items := c.list 0
  (Slice.index? items.length (c.integer 1)).bind fun i => items[i]?

def elementAs (name : String) (t : ValueType) : LibraryFunction :=
  ofPure name [.list, .integer] t fun c =>
    .value (match element? c with
      | some v => v.coerce t
      | none => .zero t)

def typeCode : Option Value → Int32
  | some (.integer _) => 1
  | some (.float _) => 2
  | some (.string _) => 3
  | some (.key _) => 4
  | some (.vector _) => 5
  | some (.rotation _) => 6
  | _ => 0

def slicing (name : String) (f : List Value → Int32 → Int32 → List Value) : LibraryFunction :=
  ofPure name [.list, .integer, .integer] .list fun c =>
    .list (f (c.list 0) (c.integer 1) (c.integer 2))

def lists : List LibraryFunction :=
  [ofPure "llGetListLength" [.list] .integer fun c => .integer (Int32.ofNat (c.list 0).length),
   elementAs "llList2Integer" .integer,
   elementAs "llList2Float" .float,
   elementAs "llList2String" .string,
   elementAs "llList2Key" .key,
   elementAs "llList2Vector" .vector,
   elementAs "llList2Rot" .rotation,
   ofPure "llGetListEntryType" [.list, .integer] .integer fun c =>
     .integer (typeCode (element? c)),
   slicing "llList2List" Slice.keep,
   ofPure "llList2ListStrided" [.list, .integer, .integer, .integer] .list fun c =>
     .list (Slice.keepEvery (c.list 0) (c.integer 1) (c.integer 2) (c.integer 3)),
   slicing "llDeleteSubList" Slice.drop,
   ofPure "llListInsertList" [.list, .list, .integer] .list fun c =>
     .list (Slice.insert (c.list 0) (c.list 1) (c.integer 2)),
   ofPure "llListReplaceList" [.list, .list, .integer, .integer] .list fun c =>
     .list (Slice.replace (c.list 0) (c.list 1) (c.integer 2) (c.integer 3)),
   ofPure "llListFindList" [.list, .list] .integer fun c =>
     .integer (match Slice.find? Value.identical (c.list 1) (c.list 0) with
       | some i => Int32.ofNat i
       | none => -1),
   ofPure "llListSort" [.list, .integer, .integer] .list fun c =>
     .list (Value.sortBlocks (c.list 0) (c.integer 1) (c.integer 2 != 0))]

end PrimScript.Library
