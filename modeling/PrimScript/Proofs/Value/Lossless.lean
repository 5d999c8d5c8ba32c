import PrimScript.Proofs.Decimal.Numeral
import PrimScript.Proofs.Json.Number
import PrimScript.Proofs.Value.WellFormed

/-! What coercion keeps.  A value that has been coerced to a type is one of its values that coercion
to it leaves as it is; integers and keys are read back from their texts, and items from the lists
that hold nothing else. -/

namespace PrimScript

namespace Decimal

theorem digitText_toDigits (n : Nat) : DigitText (Nat.toDigits 10 n) :=
  ⟨Nat.toDigits_ne_nil, fun _ => isDigit_of_mem_toDigits⟩

theorem wrapInteger_natAbs (n : Int32) :
    (if n.toInt < 0 then -(wrapInteger n.toInt.natAbs) else wrapInteger n.toInt.natAbs) = n := by
  have low := n.le_toInt
  have high := n.toInt_lt
  have small : n.toInt.natAbs < Nat.pow 2 32 := by
    rw [show Nat.pow 2 32 = 4294967296 from rfl]
    omega
  rw [wrapInteger, if_pos small, ← Int32.ofInt_eq_ofNat]
  split
  · next hn =>
    rw [← Int32.ofInt_neg, show -(n.toInt.natAbs : Int) = n.toInt by omega, Int32.ofInt_toInt]
  · next hn => rw [show (n.toInt.natAbs : Int) = n.toInt by omega, Int32.ofInt_toInt]

theorem integerPrefix_integerText (n : Int32) : integerPrefix (integerText n.toInt) = n := by
  have hs : scanInteger (Nat.toDigits 10 n.toInt.natAbs) = some (n.toInt.natAbs, []) := by
    rw [scanInteger_eq_some_nil_iff]
    simpa only [ofDigits_toDigits] using IntegerText.of_digitText (digitText_toDigits n.toInt.natAbs)
  have hw := wrapInteger_natAbs n
  unfold integerText integerText.signedDigits
  by_cases hn : n.toInt < 0
  · rw [if_pos hn] at hw
    simpa [hn, hw] using integerPrefix_append .minus hs
  · rw [if_neg hn] at hw
    simpa [hn, hw] using integerPrefix_append .none hs

end Decimal

namespace Value

def Canonical : Value → Prop
  | .key k => Key.isCanonical k
  | _ => True

variable {v : Value}

theorem WellFormed.canonical (h : v.WellFormed) : v.Canonical := by
  cases v with
  | key k => exact h
  | _ => trivial

theorem canonical_of_type (h : v.type ≠ .key) : v.Canonical := by
  cases v with
  | key k => exact absurd rfl h
  | _ => trivial

theorem canonical_coerce (t : ValueType) (v : Value) : (v.coerce t).Canonical := by
  by_cases ht : t = .list
  · exact canonical_of_type (by rw [type_coerce, ht]; decide)
  · exact (wellFormed_coerce_of_ne ht v).canonical

theorem coerce_type (h : v.Canonical) : v.coerce v.type = v := by
  cases v with
  | key k => simp [coerce, type, ofKey, Key.normalize_of_isCanonical h]
  | _ => simp [coerce, type]

theorem coerce_coerce (t : ValueType) (v : Value) : (v.coerce t).coerce t = v.coerce t := by
  have h := coerce_type (canonical_coerce t v)
  rwa [type_coerce] at h

theorem coerce_list (h : v.type ≠ .list) : v.coerce .list = .list [v] := by
  cases v with
  | list items => exact absurd rfl h
  | string s => simp [coerce, ofChars]
  | _ => simp [coerce]

theorem coerce_singleton {t : ValueType} (ht : t ≠ .list) (v : Value) :
    (Value.list [v]).coerce t = v.coerce t := by
  simp [coerce, coerceItems, ht]

theorem coerce_list_coerce (h : v.Canonical) : (v.coerce .list).coerce v.type = v := by
  by_cases ht : v.type = .list
  · have hv := coerce_type h
    rw [ht] at hv ⊢
    rw [hv, hv]
  · rw [coerce_list ht, coerce_singleton ht, coerce_type h]

theorem coerce_string_integer (n : Int32) :
    ((Value.integer n).coerce .string).coerce .integer = .integer n := by
  simp [coerce, ofChars, chars, Decimal.integerPrefix_integerText]

theorem coerce_string_key {k : String} (h : Key.isCanonical k) :
    ((Value.key k).coerce .string).coerce .key = .key k := by
  simp [coerce, ofChars, ofKey, Key.normalize_of_isCanonical h]

/-- Coercion gives a value of the type, once and for all; and what widens is not lost: every value
but a key that is not canonical comes back from a list, every integer and every canonical key from
its text. -/
theorem coerce_lossless :
    (∀ (v : Value) (t : ValueType), (v.coerce t).type = t ∧ (v.coerce t).coerce t = v.coerce t) ∧
    (∀ v : Value, v.Canonical → (v.coerce .list).coerce v.type = v) ∧
    (∀ n : Int32, ((Value.integer n).coerce .string).coerce .integer = .integer n) ∧
    (∀ k : String, Key.isCanonical k → ((Value.key k).coerce .string).coerce .key = .key k) :=
  ⟨fun v t => ⟨type_coerce t v, coerce_coerce t v⟩, fun _ h => coerce_list_coerce h,
    coerce_string_integer, fun _ h => coerce_string_key h⟩

def nestedKey : String := "a2e76fcd-9360-4f6d-a924-000000000003"

/-- A canonical key, the list of a list of it, and the least integer. -/
theorem coerce_lossless_nested :
    Key.isCanonical nestedKey ∧ (Value.key nestedKey).Canonical ∧
      ((Value.key nestedKey).coerce .list).coerce .key = .key nestedKey ∧
      ((Value.key nestedKey).coerce .string).coerce .key = .key nestedKey ∧
      ((Value.list [.list [.key nestedKey]]).coerce .key).coerce .key = .key nestedKey ∧
      ((Value.integer (-2147483648)).coerce .string).coerce .integer = .integer (-2147483648) := by
  have hk : Key.isCanonical nestedKey := by decide +kernel
  refine ⟨hk, hk, coerce_lossless.2.1 (.key nestedKey) hk, coerce_lossless.2.2.2 nestedKey hk, ?_,
    coerce_lossless.2.2.1 _⟩
  rw [(coerce_lossless.1 _ .key).2, coerce_singleton (by decide), coerce_singleton (by decide)]
  exact coerce_type (v := .key nestedKey) hk

end Value

end PrimScript
