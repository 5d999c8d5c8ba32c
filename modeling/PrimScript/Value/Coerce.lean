import PrimScript.Decimal.Prefix
import PrimScript.Text.Search
import PrimScript.Value.Basic

/-! Coercion: the value of a given type that stands for another value.  Casts, assignments and
the passing of arguments coerce. -/

namespace PrimScript.Value

def components? (count : Nat) (cs : List Char) : Option (List Float) :=
  match Text.trim cs with
  | '<' :: rest =>
    let parts := Text.splitOn (· = ',') (rest.takeWhile (· ≠ '>'))
    if parts.length = count then parts.mapM Decimal.floatPrefix? else none
  | _ => none

def vectorOf? (cs : List Char) : Option Vector3 :=
  match components? 3 cs with
  | some [x, y, z] => some ⟨x, y, z⟩
  | _ => none

def rotationOf? (cs : List Char) : Option Rotation :=
  match components? 4 cs with
  | some [x, y, z, s] => some ⟨x, y, z, s⟩
  | _ => none

/-- A text read as a value of the type.  A text that does not hold one gives the zero. -/
def ofChars (target : ValueType) (cs : List Char) : Value :=
  match target with
  | .integer => .integer (Decimal.integerPrefix cs)
  | .float => .float ((Decimal.floatPrefix? cs).getD 0)
  | .string => .string (String.ofList cs)
  | .key => ofKey (String.ofList cs)
  | .vector => .vector ((vectorOf? cs).getD Vector3.zero)
  | .rotation => .rotation ((rotationOf? cs).getD Rotation.identity)
  | .list => .list [.string (String.ofList cs)]

mutual

/-- The value of type `target` that stands for a value.  Numbers convert; a list with one item
converts as that item; all else goes through its text. -/
def coerce (target : ValueType) : Value → Value
  | .list items => if target = .list then .list items else coerceItems target items
  | .key k =>
    if target = .key then ofKey k else if target = .list then .list [.key k]
    else ofChars target k.toList
  | .integer n =>
    match target with
    | .integer => .integer n
    | .float => .float (floatOf n)
    | .list => .list [.integer n]
    | _ => ofChars target (chars (.integer n))
  | .float x =>
    match target with
    | .integer => .integer x.toInt32
    | .float => .float x
    | .list => .list [.float x]
    | _ => ofChars target (chars (.float x))
  | .string s => if target = .string then .string s else ofChars target s.toList
  | .vector v =>
    if target = .vector then .vector v else if target = .list then .list [.vector v]
    else ofChars target (vectorText v)
  | .rotation r =>
    if target = .rotation then .rotation r else if target = .list then .list [.rotation r]
    else ofChars target (rotationText r)

def coerceItems (target : ValueType) : List Value → Value
  | [v] => coerce target v
  | vs => ofChars target (charsOfItems vs)

end

def asInteger (v : Value) : Int32 :=
  match v.coerce .integer with
  | .integer n => n
  | _ => 0

def asFloat (v : Value) : Float :=
  match v.coerce .float with
  | .float x => x
  | _ => 0

def asVector (v : Value) : Vector3 :=
  match v.coerce .vector with
  | .vector x => x
  | _ => Vector3.zero

def asRotation (v : Value) : Rotation :=
  match v.coerce .rotation with
  | .rotation r => r
  | _ => Rotation.identity

@[simp] theorem type_ofChars (t : ValueType) (cs : List Char) : (ofChars t cs).type = t := by
  cases t <;> rfl

mutual

@[simp] theorem type_coerce (t : ValueType) : (v : Value) → (coerce t v).type = t
  | .list items => by
    unfold coerce
    split
    · next h => rw [h]; rfl
    · exact type_coerceItems t items
  | .integer n => by cases t <;> simp [coerce, ofChars, ofKey, type]
  | .float x => by cases t <;> simp [coerce, ofChars, ofKey, type]
  | .string s => by cases t <;> simp [coerce, ofChars, ofKey, type]
  | .key k => by cases t <;> simp [coerce, ofChars, ofKey, type]
  | .vector v => by cases t <;> simp [coerce, ofChars, ofKey, type]
  | .rotation r => by cases t <;> simp [coerce, ofChars, ofKey, type]

theorem type_coerceItems (t : ValueType) : (vs : List Value) → (coerceItems t vs).type = t
  | [] => by simp [coerceItems]
  | [v] => by simpa [coerceItems] using type_coerce t v
  | _ :: _ :: _ => by simp [coerceItems]

end

end PrimScript.Value
