import PrimScript.Text.Blank
import PrimScript.Text.Case
import PrimScript.Text.WordTable

/-! Patterns: sets of characters, places in a text, and how they are put together. -/

namespace PrimScript

inductive CharSet
  | single (c : Char) : CharSet
  | range (low high : Char) : CharSet
  | digit : CharSet
  | blank : CharSet
  | word : CharSet
  | letter : CharSet
  | none : CharSet
  | union (a b : CharSet) : CharSet
  | inter (a b : CharSet) : CharSet
  | diff (a b : CharSet) : CharSet
  | except (a : CharSet) : CharSet
  deriving Inhabited

namespace CharSet

def variants (c : Char) : List Char :=
  let lower := (Text.shifted? Text.lowerRanges c).getD c
  let upper := (Text.shifted? Text.upperRanges c).getD c
  let both := (Text.shifted? Text.upperRanges lower).getD lower
  [c, lower, upper, both, (Text.shifted? Text.lowerRanges upper).getD upper]

def has (anyCase : Bool) : CharSet → Char → Bool
  | .single d, c => if anyCase then (variants c).any fun v => v = d || (variants d).contains v
    else c = d
  | .range low high, c =>
    if anyCase then (variants c).any fun v => low ≤ v && v ≤ high else low ≤ c && c ≤ high
  | .digit, c => Text.isDecimalDigit c
  | .blank, c => Text.isBlank c
  | .word, c => Text.isWordPart c
  | .letter, c => Text.isLetter c
  | .none, _ => false
  | .union a b, c => a.has anyCase c || b.has anyCase c
  | .inter a b, c => a.has anyCase c && b.has anyCase c
  | .diff a b, c => a.has anyCase c && !b.has anyCase c
  | .except a, c => !a.has anyCase c

def ofList (sets : List CharSet) : CharSet := sets.foldl .union .none

end CharSet

inductive Anchor
  | textStart : Anchor
  | textEnd : Anchor
  | lineStart : Anchor
  | lineEnd : Anchor
  | boundary : Anchor
  | noBoundary : Anchor
  | wordStart : Anchor
  | wordEnd : Anchor

inductive Pattern
  | empty : Pattern
  | char (set : CharSet) (anyCase : Bool) : Pattern
  | place (anchor : Anchor) : Pattern
  | seq (first next : Pattern) : Pattern
  | or (left right : Pattern) : Pattern
  /-- At least `least` times and at most `most` times, or without a limit. -/
  | times (p : Pattern) (least : Nat) (most : Option Nat) : Pattern
  deriving Inhabited

end PrimScript
