import PrimScript.Pattern.Basic

/-! Matching.  A pattern takes a set of places to the set of places where a match that starts at one
of them can end; a text has a match when this set is not empty for its places. -/

namespace PrimScript.Pattern

def holds (anchor : Anchor) (before after : Option Char) : Bool :=
  let wordBefore := before.any Text.isWordPart
  let wordAfter := after.any Text.isWordPart
  match anchor with
  | .textStart => before.isNone
  | .textEnd => after.isNone
  | .lineStart => before.isNone || before == some '\n'
  | .lineEnd => after.isNone || after == some '\n'
  | .boundary => wordBefore != wordAfter
  | .noBoundary => wordBefore == wordAfter
  | .wordStart => !wordBefore && wordAfter
  | .wordEnd => wordBefore && !wordAfter

def charBefore? (text : Array Char) : Nat → Option Char
  | 0 => none
  | i + 1 => text[i]?

def merge (places others : List Nat) : List Nat :=
  places ++ others.filter (!places.contains ·)

/-- The places reached by a step made at most `count` times from the newest ones of the places
`seen`. -/
def upTo (step : List Nat → List Nat) : (count : Nat) → (seen newest : List Nat) → List Nat
  | 0, seen, _ => seen
  | count + 1, seen, newest =>
    let fresh := (step newest).filter (!seen.contains ·)
    if fresh.isEmpty then seen else upTo step count (seen ++ fresh) fresh

def exactly (step : List Nat → List Nat) : (count : Nat) → List Nat → List Nat
  | 0, places => places
  | count + 1, places => exactly step count (step places)

/-- The places where matches from the given places end.  Beyond one more than the length of the
text, repetitions reach nothing new. -/
def ends (text : Array Char) : Pattern → List Nat → List Nat
  | .empty, places => places
  | .char set anyCase, places =>
    places.filterMap fun i =>
      (text[i]?).bind fun c => if set.has anyCase c then some (i + 1) else none
  | .place anchor, places => places.filter fun i => holds anchor (charBefore? text i) text[i]?
  | .seq first next, places => next.ends text (first.ends text places)
  | .or left right, places => merge (left.ends text places) (right.ends text places)
  | .times p least most, places =>
    let bound := text.size + 1
    let start := exactly (p.ends text) (min least bound) places
    let extra := match most with
      | none => bound
      | some most => min (most - least) bound
    upTo (p.ends text) extra start start

def isMatch (p : Pattern) (text : List Char) : Bool :=
  let text := text.toArray
  !(p.ends text (List.range (text.size + 1))).isEmpty

end PrimScript.Pattern
