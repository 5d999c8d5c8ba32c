import Mathlib.Data.List.TakeWhile
import Mathlib.Data.Option.Basic
import PrimScript.Json.Printer
import PrimScript.Json.Reader

/-! Numbers in JSON text: the digits of an integer are read back, and what follows a value does not
change the number before it. -/

namespace PrimScript

namespace Decimal

theorem isDigit_digitChar {d : Nat} (h : d < 10) : isDigit (Nat.digitChar d) := by
  have all : ∀ d : Fin 10, isDigit (Nat.digitChar d) = true := by decide
  exact all ⟨d, h⟩

theorem hexValue_digitChar {d : Nat} (h : d < 16) : hexValue (Nat.digitChar d) = d := by
  have all : ∀ d : Fin 16, hexValue (Nat.digitChar d) = d := by decide
  exact all ⟨d, h⟩

theorem isDigit_of_mem_toDigits {n : Nat} {c : Char} (h : c ∈ Nat.toDigits 10 n) : isDigit c := by
  induction n using Nat.strongRecOn with
  | ind n ih =>
    rw [Nat.toDigits_eq_if (by decide)] at h
    split at h
    · next hn =>
      rw [List.mem_singleton.mp h]
      exact isDigit_digitChar hn
    · next hn =>
      obtain h | h := List.mem_append.mp h
      · exact ih _ (Nat.div_lt_self (by omega) (by decide)) h
      · rw [List.mem_singleton.mp h]
        exact isDigit_digitChar (Nat.mod_lt _ (by decide))

theorem ofDigits_toDigits (n : Nat) : ofDigits 10 (Nat.toDigits 10 n) = n := by
  induction n using Nat.strongRecOn with
  | ind n ih =>
    rw [Nat.toDigits_eq_if (by decide)]
    split
    · next hn => simp [ofDigits, hexValue_digitChar (show n < 16 by omega)]
    · next hn =>
      have last : hexValue (Nat.digitChar (n % 10)) = n % 10 :=
        hexValue_digitChar (by omega)
      have rest := ih (n / 10) (Nat.div_lt_self (by omega) (by decide))
      simp only [ofDigits] at rest
      simp only [ofDigits, List.foldl_append, rest, List.foldl_cons, List.foldl_nil, last]
      omega

theorem head?_toDigits_ne_zero {n : Nat} (h : 1 < (Nat.toDigits 10 n).length) :
    (Nat.toDigits 10 n).head? ≠ some '0' := by
  induction n using Nat.strongRecOn with
  | ind n ih =>
    rw [Nat.toDigits_eq_if (by decide)] at h ⊢
    split at h
    · simp at h
    · next hn =>
      rw [if_neg hn, List.head?_append, Option.or_of_isSome (by simp [Nat.toDigits_ne_nil])]
      by_cases hlen : 1 < (Nat.toDigits 10 (n / 10)).length
      · exact ih _ (Nat.div_lt_self (by omega) (by decide)) hlen
      · have small : n / 10 < 10 := by
          have := (Nat.length_toDigits_le_iff (b := 10) (k := 1) (n := n / 10) (by decide)
            (by decide)).mp (by omega)
          simpa using this
        have positive : ∀ d : Fin 10, (d : Nat) ≠ 0 → Nat.digitChar d ≠ '0' := by decide
        rw [Nat.toDigits_eq_if (by decide), if_pos small]
        simpa using positive ⟨n / 10, small⟩ (by simp; omega)

end Decimal

namespace Json

open Decimal

def Closed (tail : List Char) : Prop := ∀ c ∈ tail.head?, c ∈ [',', ']', '\x7d']

@[simp] theorem closed_nil : Closed [] := by simp [Closed]

section
variable {tail : List Char}

theorem takeWhile_append_of_closed {p : Char → Bool} (h : Closed tail)
    (hp : ∀ c ∈ [',', ']', '\x7d'], p c = false) (cs : List Char) :
    (cs ++ tail).takeWhile p = cs.takeWhile p := by
  induction cs with
  | nil =>
    cases tail with
    | nil => rfl
    | cons c tail => simp [hp c (h c rfl)]
  | cons c cs ih => simp only [List.cons_append, List.takeWhile_cons, ih]

theorem dropWhile_append_of_closed {p : Char → Bool} (h : Closed tail)
    (hp : ∀ c ∈ [',', ']', '\x7d'], p c = false) (cs : List Char) :
    (cs ++ tail).dropWhile p = cs.dropWhile p ++ tail := by
  induction cs with
  | nil =>
    cases tail with
    | nil => rfl
    | cons c tail => simp [hp c (h c rfl)]
  | cons c cs ih =>
    simp only [List.cons_append, List.dropWhile_cons, ih]
    split <;> simp

theorem isDigit_of_closing : ∀ c ∈ [',', ']', '\x7d'], isDigit c = false := by simp [isDigit]

theorem Closed.cases (h : Closed tail) :
    tail = [] ∨ (∃ rest, tail = ',' :: rest) ∨ (∃ rest, tail = ']' :: rest) ∨
      ∃ rest, tail = '\x7d' :: rest := by
  cases tail with
  | nil => simp
  | cons c tail => simpa [Closed] using h

theorem scanSign_append (h : Closed tail) (cs : List Char) :
    scanSign (cs ++ tail) = ((scanSign cs).1, (scanSign cs).2 ++ tail) := by
  cases cs with
  | nil => obtain rfl | ⟨rest, rfl⟩ | ⟨rest, rfl⟩ | ⟨rest, rfl⟩ := h.cases <;> simp [scanSign]
  | cons c cs =>
    simp only [List.cons_append, scanSign]
    split <;> simp_all

theorem scanExponent_append (h : Closed tail) (cs : List Char) :
    scanExponent (cs ++ tail) = (scanExponent cs).map fun (e, rest) => (e, rest ++ tail) := by
  cases cs with
  | nil => obtain rfl | ⟨rest, rfl⟩ | ⟨rest, rfl⟩ | ⟨rest, rfl⟩ := h.cases <;> simp [scanExponent]
  | cons c cs =>
    simp only [List.cons_append, scanExponent, scanSign_append h,
      takeWhile_append_of_closed h isDigit_of_closing,
      dropWhile_append_of_closed h isDigit_of_closing]
    split
    · split <;> simp
    · simp

theorem scanUnsigned_append (h : Closed tail) (negative : Bool) (cs : List Char) :
    scanUnsigned negative (cs ++ tail) =
      (scanUnsigned negative cs).map fun (j, rest) => (j, rest ++ tail) := by
  simp only [scanUnsigned, takeWhile_append_of_closed h isDigit_of_closing,
    dropWhile_append_of_closed h isDigit_of_closing]
  split
  · rfl
  · cases cs.dropWhile isDigit with
    | nil =>
      obtain rfl | ⟨rest, rfl⟩ | ⟨rest, rfl⟩ | ⟨rest, rfl⟩ := h.cases <;>
        simp [scanExponent]
    | cons c rest =>
      by_cases hc : c = '.'
      · subst hc
        simp only [List.cons_append, takeWhile_append_of_closed h isDigit_of_closing,
          dropWhile_append_of_closed h isDigit_of_closing, scanExponent_append h]
        split
        · rfl
        · cases scanExponent (rest.dropWhile isDigit) with
          | none => rfl
          | some p =>
            cases hj : scaledNumber negative (cs.takeWhile isDigit) (rest.takeWhile isDigit)
              (p.1.getD 0) <;> simp [hj]
      · have exponent := scanExponent_append h (c :: rest)
        simp only [List.cons_append] at exponent ⊢
        split
        · simp_all
        · split
          · simp_all
          · rw [exponent]
            cases scanExponent (c :: rest) with
            | none => rfl
            | some p =>
              obtain ⟨e, after⟩ := p
              cases e with
              | none =>
                cases integerNumber negative (cs.takeWhile isDigit) <;> rfl
              | some e =>
                cases hj : scaledNumber negative (cs.takeWhile isDigit) [] e <;> simp [hj]

theorem scanNumber_append (h : Closed tail) (cs : List Char) :
    scanNumber (cs ++ tail) = (scanNumber cs).map fun (j, rest) => (j, rest ++ tail) := by
  unfold scanNumber
  cases cs with
  | nil =>
    obtain rfl | ⟨rest, rfl⟩ | ⟨rest, rfl⟩ | ⟨rest, rfl⟩ := h.cases <;> rfl
  | cons c cs =>
    by_cases hc : c = '-'
    · subst hc
      exact scanUnsigned_append h true cs
    · simp only [List.cons_append]
      split <;> simp_all [← scanUnsigned_append h false (c :: cs)]

end

theorem takeWhile_toDigits (n : Nat) :
    (Nat.toDigits 10 n).takeWhile isDigit = Nat.toDigits 10 n := by
  rw [List.takeWhile_eq_self_iff]
  exact fun _ => isDigit_of_mem_toDigits

theorem dropWhile_toDigits (n : Nat) : (Nat.toDigits 10 n).dropWhile isDigit = [] := by
  rw [List.dropWhile_eq_nil_iff]
  exact fun _ => isDigit_of_mem_toDigits

theorem scanUnsigned_toDigits {negative : Bool} {n : Nat} {j : Json}
    (h : integerNumber negative (Nat.toDigits 10 n) = some j) :
    scanUnsigned negative (Nat.toDigits 10 n) = some (j, []) := by
  have digits : ¬ (Nat.toDigits 10 n = [] ∨
      ((Nat.toDigits 10 n).length > 1 ∧ (Nat.toDigits 10 n).head? = some '0')) := by
    rintro (h | ⟨h, hz⟩)
    · exact Nat.toDigits_ne_nil h
    · exact head?_toDigits_ne_zero h hz
  simp only [scanUnsigned, takeWhile_toDigits, dropWhile_toDigits, if_neg digits, scanExponent]
  simp [h]

theorem scanNumber_integerText {n : Int} (low : -9223372036854775808 ≤ n)
    (high : n < 18446744073709551616) :
    scanNumber (integerText n) = some (.int n, []) := by
  unfold integerText integerText.signedDigits
  by_cases hn : n < 0
  · have number : integerNumber true (Nat.toDigits 10 n.natAbs) = some (.int n) := by
      have small : n.natAbs < Nat.pow 2 64 := by rw [show Nat.pow 2 64 = 18446744073709551616 from rfl]; omega
      have zero : ¬ (n.natAbs = 0 ∨ Nat.pow 2 63 < n.natAbs) := by
        rw [show Nat.pow 2 63 = 9223372036854775808 from rfl]
        omega
      have value : -(n.natAbs : Int) = n := by omega
      simp only [integerNumber, ofDigits_toDigits, if_pos small, if_neg zero, value]
      rfl
    simpa [scanNumber, hn] using scanUnsigned_toDigits number
  · have number : integerNumber false (Nat.toDigits 10 n.natAbs) = some (.int n) := by
      have small : n.natAbs < Nat.pow 2 64 := by rw [show Nat.pow 2 64 = 18446744073709551616 from rfl]; omega
      have value : (n.natAbs : Int) = n := by omega
      simp [integerNumber, ofDigits_toDigits, if_pos small, value]
    have unsigned : ∀ rest, Nat.toDigits 10 n.natAbs ≠ '-' :: rest := fun rest h =>
      absurd (isDigit_of_mem_toDigits (h ▸ List.mem_cons_self)) (by decide)
    simp only [hn, decide_false, Bool.false_eq_true, if_false]
    unfold scanNumber
    split
    · next rest h => exact absurd h (unsigned rest)
    · exact scanUnsigned_toDigits number

end Json

end PrimScript
