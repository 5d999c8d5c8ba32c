/-! Ranges of places in a sequence.  Both ends belong to a range, and negative places count from the
end of the sequence.  A range that ends before it starts is what lies outside of it. -/

namespace PrimScript

structure Slice where
  first : Int
  last : Int
  deriving DecidableEq, Repr

namespace Slice

def place (length : Nat) (i : Int32) : Int := if i < 0 then i.toInt + length else i.toInt

def of (length : Nat) (first last : Int32) : Slice := ⟨place length first, place length last⟩

def contains (s : Slice) (i : Nat) : Bool :=
  if s.first ≤ s.last then s.first ≤ i && i ≤ s.last else i ≤ s.last || s.first ≤ i

def index? (length : Nat) (i : Int32) : Option Nat :=
  let p := place length i
  if 0 ≤ p ∧ p < length then some p.toNat else none

def clamp (length : Nat) (p : Int) : Nat := (min (max p 0) length).toNat

variable {α : Type}

def filterPlaces (p : Nat → Bool) (xs : List α) : List α :=
  (xs.zipIdx.filter fun x => p x.2).map (·.1)

def keep (xs : List α) (first last : Int32) : List α :=
  filterPlaces (of xs.length first last).contains xs

def drop (xs : List α) (first last : Int32) : List α :=
  let s := of xs.length first last
  filterPlaces (fun i => !s.contains i) xs

def keepEvery (xs : List α) (first last stride : Int32) : List α :=
  let step := if stride < 1 then 1 else stride.toInt.toNat
  let start := (index? xs.length first).getD 0
  let stop :=
    if last < 0 then (index? xs.length last).getD 0 else min last.toInt.toNat (xs.length - 1)
  filterPlaces (fun i => start ≤ i && i ≤ stop && (i - start) % step = 0) xs

def insert (xs ys : List α) (i : Int32) : List α :=
  let p := clamp xs.length (place xs.length i)
  xs.take p ++ ys ++ xs.drop p

/-- The items with a range of them replaced.  When the range ends before it starts, the items
between its ends stay, and the replacement follows them. -/
def replace (xs ys : List α) (first last : Int32) : List α :=
  let s := of xs.length first last
  if s.first ≤ s.last then
    xs.take (clamp xs.length s.first) ++ ys ++ xs.drop (clamp xs.length (s.last + 1))
  else
    (xs.take (clamp xs.length s.first)).drop (clamp xs.length (s.last + 1)) ++ ys

def find? (same : α → α → Bool) (pattern xs : List α) : Option Nat :=
  if pattern.isEmpty then some 0
  else
    (List.range (xs.length + 1 - pattern.length)).find? fun i =>
      pattern.length + i ≤ xs.length && ((xs.drop i).zip pattern).all fun (x, y) => same x y

end Slice

end PrimScript
