import PrimScript.Json.Basic

/-! Reading records from JSON.  A record is an object with named fields or an array with one item
per field, in their order.  Fields that no one asks for are passed over, a known field may appear
once only, and `room` levels of nesting are left. -/

namespace PrimScript.Json

/-- A reader of one kind of data, given how many levels of nesting are left. -/
abbrev Decode (α : Type) := (room : Nat) → Json → Option α

/-- The value of a field that appears at most once; none when it appears twice. -/
def uniqueField (name : String) (fields : List (String × Json)) : Option (Option Json) :=
  match fields.filter (·.1 = name) with
  | [] => some none
  | [(_, j)] => some (some j)
  | _ => none

def record? (names : List String) : Json → Option (List (Option Json))
  | .obj fields => names.mapM fun name => uniqueField name fields
  | .arr items =>
    if items.length ≤ names.length then
      some (items.map some ++ List.replicate (names.length - items.length) none)
    else none
  | _ => none

def tagged? (tag : String) : Json → Option (String × Json)
  | .obj fields =>
    match uniqueField tag fields with
    | some (some (.str kind)) => some (kind, .obj (fields.filter (·.1 ≠ tag)))
    | _ => none
  | .arr (.str kind :: items) => some (kind, .arr items)
  | _ => none

def required {α : Type} (d : Decode α) (room : Nat) : Option Json → Option α
  | some j => d room j
  | none => none

def orElse {α : Type} (default : α) (d : Decode α) (room : Nat) : Option Json → Option α
  | some j => d room j
  | none => some default

/-- A field that may be left out or be `null`. -/
def optional {α : Type} (d : Decode α) (room : Nat) : Option Json → Option (Option α)
  | none => some none
  | some .null => some none
  | some j => (d room j).map some

def string? : Decode String
  | _, .str s => some s
  | _, _ => none

def bool? : Decode Bool
  | _, .bool b => some b
  | _, _ => none

/-- A floating point number; integers are taken for one. -/
def float? : Decode Float
  | _, .num x => some x
  | _, .int n => some (Float.ofInt n)
  | _, _ => none

def intBetween (low high : Int) : Decode Int
  | _, .int n => if low ≤ n ∧ n ≤ high then some n else none
  | _, _ => none

def int32? : Decode Int32 := fun room j =>
  (intBetween (-2147483648) 2147483647 room j).map Int32.ofInt

def nat64? : Decode Nat := fun room j => (intBetween 0 (Nat.pow 2 64 - 1) room j).map Int.toNat

def inside {α : Type} (d : Decode α) : Decode α
  | 0, _ => none
  | room + 1, j => d room j

/-- A reader of values that may not be nested more deeply than there is room, whatever the reader
asks for of them. -/
def whole {α : Type} (d : Decode α) : Decode α := fun room j =>
  if j.depth ≤ room then d room j else none

def array? {α : Type} (d : Decode α) : Decode (List α)
  | room + 1, .arr items => items.mapM (d room)
  | _, _ => none

def entries? {α : Type} (d : Decode α) : Decode (List (String × α))
  | room + 1, .obj fields => fields.mapM fun (name, j) => (d room j).map (name, ·)
  | _, _ => none

/-- One of a set of words, as a string or as the only field of an object, with the value
`null`. -/
def word? {α : Type} (ofName? : String → Option α) : Decode α
  | _, .str s => ofName? s
  | _ + 1, .obj [(s, .null)] => ofName? s
  | _, _ => none

end PrimScript.Json
