import Mathlib.Data.List.Forall2
import Mathlib.Data.List.TakeWhile
import Mathlib.Data.Nat.Digits.Defs
import Mathlib.Tactic.IntervalCases
import PrimScript.Decimal.Prefix

/-! Numerals: which texts spell one, and what a text that begins with one is read as. -/

namespace PrimScript

theorem Text.trim_of_not_blank {cs : List Char} (h : ∀ c ∈ cs, isBlank c = false) : trim cs = cs := by
  have hdrop {cs : List Char} (h : ∀ c ∈ cs, isBlank c = false) : cs.dropWhile isBlank = cs := by
    cases cs with
    | nil => rfl
    | cons c cs => rw [List.dropWhile_cons_of_neg (by simp [h c])]
  rw [trim, trimStart, hdrop h, trimEnd, hdrop (by simpa using h), List.reverse_reverse]

namespace Decimal

variable {c : Char} {cs ds fs v rest tail : List Char} {negative : Bool}

theorem isDigit_iff : isDigit c = true ↔ 48 ≤ c.toNat ∧ c.toNat ≤ 57 := by
  simp [isDigit, Char.le_def, UInt32.le_iff_toNat_le]

def Stops (p : Char → Bool) (cs : List Char) : Prop := ∀ c ∈ cs.head?, p c = false

@[simp] theorem stops_nil (p : Char → Bool) : Stops p [] := by simp [Stops]

@[simp] theorem stops_cons {p : Char → Bool} : Stops p (c :: cs) ↔ p c = false := by simp [Stops]

theorem Stops.mono {p q : Char → Bool} (h : Stops p cs) (hpq : ∀ c, q c → p c) : Stops q cs := by
  intro c hc
  have hp := h c hc
  cases hq : q c with
  | false => rfl
  | true => simp [hpq c hq] at hp

theorem span_iff {p : Char → Bool} : cs.takeWhile p = ds ∧ cs.dropWhile p = rest ↔
    cs = ds ++ rest ∧ (∀ c ∈ ds, p c) ∧ Stops p rest := by
  constructor
  · rintro ⟨rfl, rfl⟩
    refine ⟨List.takeWhile_append_dropWhile.symm, fun c hc => List.mem_takeWhile_imp hc, ?_⟩
    have h := List.head?_dropWhile_not p cs
    intro c hc
    simpa [Option.mem_def.1 hc] using h
  · rintro ⟨rfl, hd, hr⟩
    rw [List.takeWhile_append_of_pos hd, List.dropWhile_append_of_pos hd]
    cases rest with
    | nil => simp
    | cons c rest => simp [stops_cons.1 hr]

theorem span_spec (p : Char → Bool) (cs : List Char) :
    cs = cs.takeWhile p ++ cs.dropWhile p ∧ (∀ c ∈ cs.takeWhile p, p c) ∧
      Stops p (cs.dropWhile p) :=
  span_iff.1 ⟨rfl, rfl⟩

theorem span_append {p : Char → Bool} (hd : ∀ c ∈ ds, p c) (hr : Stops p rest) :
    (ds ++ rest).takeWhile p = ds ∧ (ds ++ rest).dropWhile p = rest :=
  span_iff.2 ⟨rfl, hd, hr⟩

def DigitText (ds : List Char) : Prop := ds ≠ [] ∧ ∀ c ∈ ds, isDigit c

inductive SignText : List Char → Bool → Prop
  | none : SignText [] false
  | plus : SignText ['+'] false
  | minus : SignText ['-'] true

structure Unsigned (c : Char) : Prop where
  isBlank : Text.isBlank c = false
  ne_minus : c ≠ '-'
  ne_plus : c ≠ '+'

theorem Unsigned.of_isDigit (h : isDigit c) : Unsigned c := by
  rw [isDigit_iff] at h
  constructor
  · simp [Text.isBlank, Text.blankRanges]
    omega
  · rintro rfl
    exact absurd h (by decide)
  · rintro rfl
    exact absurd h (by decide)

theorem unsigned_point : Unsigned '.' := ⟨by decide, by decide, by decide⟩

theorem scanSign_append (h : SignText v negative) (hc : Unsigned c) :
    scanSign (v ++ c :: cs) = (negative, c :: cs) := by
  cases h with
  | none => simp [scanSign, hc.ne_minus, hc.ne_plus]
  | plus => rfl
  | minus => rfl

theorem signText_scanSign (cs : List Char) :
    ∃ v, SignText v (scanSign cs).1 ∧ cs = v ++ (scanSign cs).2 := by
  unfold scanSign
  split
  · exact ⟨_, .minus, rfl⟩
  · exact ⟨_, .plus, rfl⟩
  · exact ⟨_, .none, rfl⟩

theorem stops_isBlank_append (h : SignText v negative) (hc : Unsigned c) :
    Stops Text.isBlank (v ++ c :: cs) := by
  cases h with
  | none => exact stops_cons.2 hc.isBlank
  | plus => exact stops_cons.2 (by decide)
  | minus => exact stops_cons.2 (by decide)

@[simp] theorem before_append (cs rest : List Char) : before rest (cs ++ rest) = cs := by
  simp [before]

end Decimal

/-! Matches of regular expressions, where they are as long as possible -/

namespace Regex

open Decimal (Stops stops_cons)

variable {α : Type} {p : Char → Bool} {r r' : Regex} {c : Char} {cs ds rest : List Char}
  {k : List Char → Option α} {a : α}

theorem run_or : (Regex.or r r').run cs k = (r.run cs k).or (r'.run cs k) := by
  simp [run, Option.orElse_eq_or]

theorem run_or_left (h : r.run cs k = some a) : (Regex.or r r').run cs k = some a := by
  rw [run_or, h, Option.some_or]

theorem run_or_right (h : r.run cs k = none) : (Regex.or r r').run cs k = r'.run cs k := by
  rw [run_or, h, Option.none_or]

theorem run_optional : (optional r).run cs k = (r.run cs k).or (k cs) := run_or

theorem run_many_of_stops (hr : Stops p rest) (h : k rest = some a) : (many p).run rest k = some a := by
  change runMany p k rest = some a
  cases rest with
  | nil => exact h
  | cons c rest => rw [runMany, stops_cons.1 hr, if_neg Bool.false_ne_true, h]

theorem run_many_append (hd : ∀ c ∈ ds, p c) (hr : Stops p rest) (h : k rest = some a) :
    (many p).run (ds ++ rest) k = some a := by
  change runMany p k (ds ++ rest) = some a
  induction ds with
  | nil => exact run_many_of_stops hr h
  | cons d ds ih =>
    rw [List.forall_mem_cons] at hd
    rw [List.cons_append, runMany, if_pos hd.1, ih hd.2]
    rfl

theorem run_many (h : ∀ c cs, p c → k (c :: cs) = none) (cs : List Char) :
    (many p).run cs k = k (cs.dropWhile p) := by
  change runMany p k cs = _
  induction cs with
  | nil => rfl
  | cons c cs ih =>
    rw [runMany]
    by_cases hc : p c
    · rw [if_pos hc, h c cs hc, ih, List.dropWhile_cons_of_pos hc, Option.orElse_eq_orElse,
        Option.orElse_eq_or, Option.or_none]
    · rw [if_neg hc, List.dropWhile_cons_of_neg hc]

theorem run_plus_append (hne : ds ≠ []) (hd : ∀ c ∈ ds, p c) (hr : Stops p rest) (h : k rest = some a) :
    (plus p).run (ds ++ rest) k = some a := by
  obtain ⟨d, ds, rfl⟩ := List.exists_cons_of_ne_nil hne
  rw [List.forall_mem_cons] at hd
  rw [plus, run, List.cons_append, run, if_pos hd.1]
  exact run_many_append hd.2 hr h

theorem run_char_of_stops (h : Stops p cs) : (char p).run cs k = none := by
  cases cs with
  | nil => rfl
  | cons c cs => rw [run, stops_cons.1 h, if_neg Bool.false_ne_true]

theorem run_plus_of_stops (h : Stops p cs) : (plus p).run cs k = none := run_char_of_stops h

theorem exists_of_run (h : r.run cs k = some a) : ∃ ds rest, cs = ds ++ rest ∧ k rest = some a := by
  induction r generalizing cs k with
  | empty => exact ⟨[], cs, rfl, h⟩
  | char p =>
    cases cs with
    | nil => cases h
    | cons c cs =>
      rw [run] at h
      split at h
      · exact ⟨[c], cs, rfl, h⟩
      · cases h
  | many p =>
    change runMany p k cs = some a at h
    induction cs with
    | nil => exact ⟨[], [], rfl, h⟩
    | cons c cs ih =>
      rw [runMany] at h
      split at h
      · rw [Option.orElse_eq_orElse, Option.orElse_eq_or, Option.or_eq_some_iff] at h
        rcases h with h | ⟨-, h⟩
        · obtain ⟨ds, rest, rfl, hn⟩ := ih h
          exact ⟨c :: ds, rest, rfl, hn⟩
        · exact ⟨[], c :: cs, rfl, h⟩
      · exact ⟨[], c :: cs, rfl, h⟩
  | seq r r' ih ih' =>
    obtain ⟨ds, rest, rfl, h'⟩ := ih h
    obtain ⟨ds', rest, rfl, hn⟩ := ih' h'
    exact ⟨ds ++ ds', rest, (List.append_assoc _ _ _).symm, hn⟩
  | or r r' ih ih' =>
    rw [run_or, Option.or_eq_some_iff] at h
    rcases h with h | ⟨-, h⟩
    · exact ih h
    · exact ih' h

end Regex

namespace Decimal

section Sign

variable {α : Type} {k : List Char → Option α} {a : α}

theorem run_sign_append (h : SignText v negative) (hc : Unsigned c) (hn : k (c :: cs) = some a) :
    sign.run (v ++ c :: cs) k = some a := by
  rw [sign, Regex.run_optional]
  cases h with
  | none => simp [Regex.run, hc.ne_minus, hc.ne_plus, hn]
  | plus => simp [Regex.run, hn]
  | minus => simp [Regex.run, hn]

theorem run_blanks_append (h : SignText v negative) (hc : Unsigned c) (hn : k (v ++ c :: cs) = some a) :
    blanks.run (v ++ c :: cs) k = some a :=
  Regex.run_many_of_stops (stops_isBlank_append h hc) hn

end Sign

/-- The digits of a base, up to sixteen, with their values. -/
def IsDigit (base : Nat) (c : Char) (d : Nat) : Prop :=
  d < base ∧ ("0123456789abcdef".toList[d]? = some c ∨ "0123456789ABCDEF".toList[d]? = some c)

instance (base : Nat) (c : Char) (d : Nat) : Decidable (IsDigit base c d) :=
  inferInstanceAs (Decidable (_ ∧ _))

theorem forall_between {p : Char → Prop} (low high : Nat)
    (h : ∀ n < high + 1 - low, p (Char.ofNat (low + n))) (hl : low ≤ c.toNat) (hh : c.toNat ≤ high) :
    p c := by
  have hc := h (c.toNat - low) (by omega)
  rwa [Nat.add_sub_cancel' hl, Char.ofNat_toNat] at hc

theorem isDigit_hexValue (h : isDigit c) : IsDigit 10 c (hexValue c) := by
  rw [isDigit_iff] at h
  exact forall_between (p := fun c => IsDigit 10 c (hexValue c)) 48 57 (by decide) h.1 h.2

theorem isDigit_hexValue_of_isHexDigit (h : isHexDigit c) : IsDigit 16 c (hexValue c) := by
  simp only [isHexDigit, Bool.or_eq_true, Bool.and_eq_true, decide_eq_true_eq, Char.le_def,
    UInt32.le_iff_toNat_le] at h
  rcases h with (h | h) | h
  · obtain ⟨hd, hc⟩ := isDigit_hexValue h
    exact ⟨by omega, hc⟩
  · exact forall_between (p := fun c => IsDigit 16 c (hexValue c)) 97 102 (by decide) h.1 h.2
  · exact forall_between (p := fun c => IsDigit 16 c (hexValue c)) 65 70 (by decide) h.1 h.2

theorem IsDigit.decimal {d : Nat} (h : IsDigit 10 c d) : isDigit c ∧ hexValue c = d := by
  obtain ⟨hd, hc⟩ := h
  interval_cases d <;> rcases hc with hc | hc <;> cases hc <;> decide

theorem IsDigit.hexadecimal {d : Nat} (h : IsDigit 16 c d) : isHexDigit c ∧ hexValue c = d := by
  obtain ⟨hd, hc⟩ := h
  interval_cases d <;> rcases hc with hc | hc <;> cases hc <;> decide

theorem ofDigits_eq {base : Nat} {values : List Nat}
    (h : List.Forall₂ (fun c d => hexValue c = d) ds values) :
    ofDigits base ds = Nat.ofDigits base values.reverse := by
  rw [Nat.ofDigits_eq_foldr, List.foldr_reverse, ofDigits]
  have hfold (n : Nat) : ds.foldl (fun n c => n * base + hexValue c) n =
      values.foldl (fun n d => (d : Nat) + base * n) n := by
    induction h generalizing n with
    | nil => rfl
    | cons hc _ ih => rw [List.foldl_cons, List.foldl_cons, ih, hc, Nat.add_comm, Nat.mul_comm]
  exact hfold 0

theorem forall₂_hexValue {p : Char → Nat → Prop} (h : ∀ c ∈ ds, p c (hexValue c)) :
    List.Forall₂ p ds (ds.map hexValue) := by
  rw [List.forall₂_map_right_iff, List.forall₂_same]
  exact h

theorem ofDigits_hexValue (base : Nat) (ds : List Char) :
    Nat.ofDigits base (ds.map hexValue).reverse = ofDigits base ds :=
  (ofDigits_eq (forall₂_hexValue fun _ _ => rfl)).symm

/-- The spellings of an unsigned integer: decimal digits, or `0x` and hexadecimal digits. -/
inductive IntegerText : List Char → Nat → Prop
  | decimal {ds : List Char} {values : List Nat} (hne : ds ≠ [])
      (hd : List.Forall₂ (IsDigit 10) ds values) : IntegerText ds (Nat.ofDigits 10 values.reverse)
  | hexadecimal {x : Char} {hs : List Char} {values : List Nat} (hx : x = 'x' ∨ x = 'X') (hne : hs ≠ [])
      (hh : List.Forall₂ (IsDigit 16) hs values) :
      IntegerText ('0' :: x :: hs) (Nat.ofDigits 16 values.reverse)

theorem IntegerText.of_digitText (h : DigitText ds) : IntegerText ds (ofDigits 10 ds) := by
  rw [← ofDigits_hexValue]
  exact .decimal h.1 (forall₂_hexValue fun c hc => isDigit_hexValue (h.2 c hc))

theorem IntegerText.of_hexadecimal {x : Char} {hs : List Char} (hx : x = 'x' ∨ x = 'X') (hne : hs ≠ [])
    (hh : ∀ c ∈ hs, isHexDigit c) : IntegerText ('0' :: x :: hs) (ofDigits 16 hs) := by
  rw [← ofDigits_hexValue]
  exact .hexadecimal hx hne (forall₂_hexValue fun c hc => isDigit_hexValue_of_isHexDigit (hh c hc))

theorem IntegerText.decimal_or_hexadecimal {n : Nat} (h : IntegerText cs n) :
    (DigitText cs ∧ n = ofDigits 10 cs) ∨
    ∃ x hs, (x = 'x' ∨ x = 'X') ∧ hs ≠ [] ∧ (∀ c ∈ hs, isHexDigit c) ∧ cs = '0' :: x :: hs ∧
      n = ofDigits 16 hs := by
  cases h with
  | decimal hne hd =>
    obtain ⟨hdigit, hvalue⟩ := (List.forall₂_and_left _ _).1 (hd.imp fun _ _ => IsDigit.decimal)
    exact .inl ⟨⟨hne, hdigit⟩, (ofDigits_eq hvalue).symm⟩
  | hexadecimal hx hne hh =>
    obtain ⟨hdigit, hvalue⟩ := (List.forall₂_and_left _ _).1 (hh.imp fun _ _ => IsDigit.hexadecimal)
    exact .inr ⟨_, _, hx, hne, hdigit, rfl, (ofDigits_eq hvalue).symm⟩

def scanDecimal (cs : List Char) : Option (Nat × List Char) :=
  if cs.takeWhile isDigit = [] then none
  else some (ofDigits 10 (cs.takeWhile isDigit), cs.dropWhile isDigit)

def scanHexadecimal : List Char → Option (Nat × List Char)
  | '0' :: x :: rest =>
    if (x = 'x' ∨ x = 'X') ∧ rest.takeWhile isHexDigit ≠ [] then
      some (ofDigits 16 (rest.takeWhile isHexDigit), rest.dropWhile isHexDigit)
    else none
  | _ => none

def scanInteger (cs : List Char) : Option (Nat × List Char) := (scanHexadecimal cs).or (scanDecimal cs)

theorem scanDecimal_eq_some_iff {n : Nat} :
    scanDecimal cs = some (n, rest) ↔ ∃ ds, DigitText ds ∧ Stops isDigit rest ∧ cs = ds ++ rest ∧
      n = ofDigits 10 ds := by
  unfold scanDecimal
  constructor
  · intro h
    split at h
    · cases h
    · next hne =>
      cases h
      obtain ⟨he, hd, hr⟩ := span_spec isDigit cs
      exact ⟨_, ⟨hne, hd⟩, hr, he, rfl⟩
  · rintro ⟨ds, ⟨hne, hd⟩, hr, he, rfl⟩
    obtain ⟨ht, hw⟩ := span_iff.2 ⟨he, hd, hr⟩
    rw [ht, hw, if_neg hne]

theorem scanHexadecimal_eq_some_iff {n : Nat} :
    scanHexadecimal cs = some (n, rest) ↔ ∃ x hs, (x = 'x' ∨ x = 'X') ∧ hs ≠ [] ∧
      (∀ c ∈ hs, isHexDigit c) ∧ Stops isHexDigit rest ∧ cs = '0' :: x :: (hs ++ rest) ∧
        n = ofDigits 16 hs := by
  constructor
  · intro h
    unfold scanHexadecimal at h
    split at h
    · next x tail =>
      split at h
      · next hx =>
        cases h
        obtain ⟨he, hh, hr⟩ := span_spec isHexDigit tail
        exact ⟨x, _, hx.1, hx.2, hh, hr, by rw [← he], rfl⟩
      · cases h
    · cases h
  · rintro ⟨x, hs, hx, hne, hh, hr, rfl, rfl⟩
    obtain ⟨ht, hw⟩ := span_append hh hr
    rw [scanHexadecimal, ht, hw, if_pos ⟨hx, hne⟩]

theorem scanHexadecimal_of_digits (hd : DigitText ds) : scanHexadecimal ds = none := by
  unfold scanHexadecimal
  split
  · next x rest =>
    have hx := isDigit_iff.1 (hd.2 x (by simp))
    rw [if_neg]
    rintro ⟨rfl | rfl, -⟩
    · exact absurd hx (by decide)
    · exact absurd hx (by decide)
  · rfl

theorem scanInteger_eq_some_nil_iff {n : Nat} :
    scanInteger cs = some (n, []) ↔ IntegerText cs n := by
  rw [scanInteger, Option.or_eq_some_iff, scanHexadecimal_eq_some_iff, scanDecimal_eq_some_iff]
  constructor
  · rintro (⟨x, hs, hx, hne, hh, -, rfl, rfl⟩ | ⟨-, ds, hd, -, rfl, rfl⟩)
    · rw [List.append_nil]
      exact .of_hexadecimal hx hne hh
    · rw [List.append_nil]
      exact .of_digitText hd
  · intro h
    rcases h.decimal_or_hexadecimal with ⟨hd, rfl⟩ | ⟨x, hs, hx, hne, hh, rfl, rfl⟩
    · exact .inr ⟨scanHexadecimal_of_digits hd, _, hd, stops_nil _, by simp, rfl⟩
    · exact .inl ⟨x, hs, hx, hne, hh, stops_nil _, by simp, rfl⟩

theorem exists_digit_of_scanInteger {r : Nat × List Char} (h : scanInteger cs = some r) :
    ∃ c tail, cs = c :: tail ∧ isDigit c := by
  rw [scanInteger, Option.or_eq_some_iff, scanHexadecimal_eq_some_iff,
    scanDecimal_eq_some_iff] at h
  rcases h with ⟨x, hs, -, -, -, -, rfl, -⟩ | ⟨-, ds, ⟨hne, hd⟩, -, rfl, -⟩
  · exact ⟨'0', _, rfl, by decide⟩
  · obtain ⟨c, tail, rfl⟩ := List.exists_cons_of_ne_nil hne
    exact ⟨c, _, rfl, hd c (by simp)⟩

/-- The 32-bit integer written by an unsigned numeral: it wraps up to 32 bits, and one that needs more is `-1`. -/
def wrapInteger (n : Nat) : Int32 := if n < Nat.pow 2 32 then Int32.ofNat n else -1

theorem clamp_word? (base : Nat) (ds : List Char) :
    (if Nat.pow 2 32 - 1 < (word? base ds).getD (Nat.pow 2 64 - 1) then -1
      else Int32.ofNat ((word? base ds).getD (Nat.pow 2 64 - 1))) = wrapInteger (ofDigits base ds) := by
  have h32 : Nat.pow 2 32 = 4294967296 := rfl
  have h64 : Nat.pow 2 64 = 18446744073709551616 := rfl
  unfold word? wrapInteger
  by_cases hw : ofDigits base ds < Nat.pow 2 64
  · rw [if_pos hw, Option.getD_some]
    by_cases hs : ofDigits base ds < Nat.pow 2 32
    · rw [if_pos hs, if_neg (by omega)]
    · rw [if_neg hs, if_pos (by omega)]
  · rw [if_neg hw, Option.getD_none, if_pos (by omega), if_neg (by omega)]

theorem integerOf_decimal (hd : DigitText ds) (sign : List Char) : integerOf sign ds =
    if sign = ['-'] then -(wrapInteger (ofDigits 10 ds)) else wrapInteger (ofDigits 10 ds) := by
  have hu : unsignedOf ds = (word? 10 ds).getD (Nat.pow 2 64 - 1) := by
    unfold unsignedOf
    split
    · next x hs =>
      have hx := isDigit_iff.1 (hd.2 x (by simp))
      rw [if_neg]
      rintro (rfl | rfl)
      · exact absurd hx (by decide)
      · exact absurd hx (by decide)
    · rfl
  rw [integerOf, hu, clamp_word?]

theorem integerOf_hexadecimal {x : Char} (hx : x = 'x' ∨ x = 'X') (hs sign : List Char) :
    integerOf sign ('0' :: x :: hs) =
      if sign = ['-'] then -(wrapInteger (ofDigits 16 hs)) else wrapInteger (ofDigits 16 hs) := by
  have hu : unsignedOf ('0' :: x :: hs) = (word? 16 hs).getD (Nat.pow 2 64 - 1) := by
    rw [unsignedOf, if_pos hx]
  rw [integerOf, hu, clamp_word?]

section Match

variable {α : Type} {k : List Char → Option α} {a : α} {n : Nat}

theorem run_letter_cons {d : Char} (h : c = d ∨ c = d.toUpper) (k : List Char → Option α) :
    (Regex.letter d).run (c :: cs) k = k cs := by
  rw [Regex.letter, Regex.run, if_pos (by simpa using h)]

theorem run_letter_of_ne {d : Char} (h : ¬ (c = d ∨ c = d.toUpper)) (k : List Char → Option α) :
    (Regex.letter d).run (c :: cs) k = none := by
  rw [Regex.letter, Regex.run, if_neg (by simpa using h)]

theorem run_integer_of_scanHexadecimal (h : scanHexadecimal cs = none) (k : List Char → Option α) :
    integer.run cs k = (Regex.plus isDigit).run cs k := by
  refine Regex.run_or_right ?_
  cases cs with
  | nil => rfl
  | cons c cs =>
    by_cases hc : c = '0'
    · subst hc
      cases cs with
      | nil => rfl
      | cons x cs =>
        rw [Regex.run, Regex.run, if_pos (by rfl), Regex.run]
        by_cases hx : x = 'x' ∨ x = 'X'
        · rw [run_letter_cons hx]
          refine Regex.run_plus_of_stops fun d hd => ?_
          by_contra hdigit
          obtain ⟨ds, rfl⟩ := List.head?_eq_some_iff.1 hd
          rw [scanHexadecimal, if_pos ⟨hx, by simp [hdigit]⟩] at h
          cases h
        · exact run_letter_of_ne hx _
    · rw [Regex.run, Regex.run, if_neg (by simpa using hc)]

theorem run_integer (h : scanInteger cs = some (n, rest)) (hn : k rest = some a) :
    ∃ ds, cs = ds ++ rest ∧ integer.run cs k = some a ∧ ∀ sign, integerOf sign ds =
      if sign = ['-'] then -(wrapInteger n) else wrapInteger n := by
  rw [scanInteger, Option.or_eq_some_iff, scanHexadecimal_eq_some_iff, scanDecimal_eq_some_iff] at h
  rcases h with ⟨x, hs, hx, hne, hh, hr, rfl, rfl⟩ | ⟨hnone, ds, hd, hr, rfl, rfl⟩
  · refine ⟨'0' :: x :: hs, rfl, Regex.run_or_left ?_, integerOf_hexadecimal hx hs⟩
    rw [Regex.run, Regex.run, if_pos (by rfl), Regex.run, run_letter_cons hx]
    exact Regex.run_plus_append hne hh hr hn
  · refine ⟨ds, rfl, ?_, integerOf_decimal hd⟩
    rw [run_integer_of_scanHexadecimal hnone]
    exact Regex.run_plus_append hd.1 hd.2 hr hn

end Match

theorem integerPrefix_append {n : Nat} (hs : SignText v negative) (h : scanInteger cs = some (n, rest)) :
    integerPrefix (v ++ cs) = if negative then -(wrapInteger n) else wrapInteger n := by
  obtain ⟨c, tail, htail, hc⟩ := exists_digit_of_scanInteger h
  have hu := Unsigned.of_isDigit hc
  obtain ⟨ds, hds, hrun, hvalue⟩ :=
    run_integer (k := fun rest => some (before cs (v ++ cs), before rest cs)) h rfl
  have hfound : blanks.run (v ++ cs) (fun start => sign.run start fun body => integer.run body fun rest =>
      some (before body start, before rest body)) = some (v, ds) := by
    have hparts : (before cs (v ++ cs), before rest cs) = (v, ds) := by
      rw [before_append, hds, before_append]
    rw [hparts] at hrun
    subst htail
    exact run_blanks_append hs hu (run_sign_append hs hu hrun)
  rw [integerPrefix, hfound]
  dsimp only
  rw [hvalue]
  cases hs <;> rfl

inductive ExponentText : List Char → Option Int → Prop
  | none : ExponentText [] none
  | some {e : Char} {sign ds : List Char} {negative : Bool} (he : e = 'e' ∨ e = 'E')
      (hs : SignText sign negative) (hd : DigitText ds) :
      ExponentText (e :: (sign ++ ds))
        (some (if negative then -(ofDigits 10 ds : Int) else ofDigits 10 ds))

/-- The spellings of a numeral: digits before the point, after it or on both sides, or no point. -/
inductive NumeralText : List Char → Numeral → Prop
  | whole {ds es : List Char} {e : Option Int} (hd : DigitText ds) (he : ExponentText es e) :
      NumeralText (ds ++ es) ⟨ds, [], false, e⟩
  | pointed {ds fs es : List Char} {e : Option Int} (hd : ∀ c ∈ ds, isDigit c)
      (hf : ∀ c ∈ fs, isDigit c) (hne : ¬ (ds = [] ∧ fs = [])) (he : ExponentText es e) :
      NumeralText (ds ++ '.' :: (fs ++ es)) ⟨ds, fs, true, e⟩

def continues (c : Char) : Bool := isDigit c || c = '.' || c = 'e' || c = 'E'

theorem Stops.of_continues (h : Stops continues tail) : Stops isDigit tail :=
  h.mono fun c hc => by simp [continues, hc]

theorem scanExponent_append {e : Option Int} (h : ExponentText v e) (ht : Stops continues tail) :
    scanExponent (v ++ tail) = (e, tail) := by
  cases h with
  | none =>
    cases tail with
    | nil => rfl
    | cons c tail =>
      have hc : c ≠ 'e' ∧ c ≠ 'E' := by simp_all [continues]
      simp [scanExponent, hc]
  | @some e sign ds negative he hs hd =>
    obtain ⟨d, rest, rfl⟩ := List.exists_cons_of_ne_nil hd.1
    have hsign : scanSign (sign ++ d :: (rest ++ tail)) = (negative, d :: (rest ++ tail)) :=
      scanSign_append hs (.of_isDigit (hd.2 d (by simp)))
    obtain ⟨hw, hr⟩ := span_append hd.2 ht.of_continues
    rw [List.cons_append] at hw hr
    simp only [List.cons_append, List.append_assoc, scanExponent, if_pos he, hsign, hw, hr]

theorem exponentText_scanExponent (cs : List Char) :
    ∃ v, ExponentText v (scanExponent cs).1 ∧ cs = v ++ (scanExponent cs).2 := by
  have hnone : ∃ v, ExponentText v none ∧ cs = v ++ cs := ⟨_, .none, rfl⟩
  unfold scanExponent
  split
  · next c tail =>
    split
    · next he =>
      obtain ⟨sign, hs, htail⟩ := signText_scanSign tail
      obtain ⟨hbody, hd, -⟩ := span_spec isDigit (scanSign tail).2
      dsimp only
      split
      · exact hnone
      · next hne =>
        refine ⟨_, .some he hs ⟨hne, hd⟩, ?_⟩
        rw [List.cons_append, List.append_assoc, ← hbody, ← htail]
    · exact hnone
  · exact hnone

theorem ExponentText.stops {e : Option Int} (h : ExponentText v e) (ht : Stops continues tail) :
    Stops isDigit (v ++ tail) := by
  cases h with
  | none => exact ht.of_continues
  | some he => rcases he with rfl | rfl <;> simp [isDigit]

theorem scanNumeral_append {n : Numeral} (h : NumeralText v n) (ht : Stops continues tail) :
    scanNumeral (v ++ tail) = some (n, tail) := by
  cases h with
  | @whole ds es e hd he =>
    obtain ⟨hw, hr⟩ := span_append hd.2 (he.stops ht)
    rw [List.append_assoc, scanNumeral, hw, hr]
    dsimp only
    split
    · next r heq =>
      -- neither an exponent nor what stops a numeral begins with a point
      cases he with
      | none => simp_all [continues]
      | some he => rcases he with rfl | rfl <;> simp at heq
    · rw [if_neg hd.1, scanExponent_append he ht]
  | @pointed ds fs es e hd hf hne he =>
    have hp : Stops isDigit ('.' :: (fs ++ (es ++ tail))) := by simp [isDigit]
    obtain ⟨hw, hr⟩ := span_append hd hp
    obtain ⟨hw', hr'⟩ := span_append hf (he.stops ht)
    simp only [List.append_assoc, List.cons_append, scanNumeral, hw, hr, hw', hr', if_neg hne,
      scanExponent_append he ht]

theorem of_scanNumeral {n : Numeral} (h : scanNumeral cs = some (n, rest)) :
    ∃ v, NumeralText v n ∧ cs = v ++ rest := by
  obtain ⟨hcs, hd, -⟩ := span_spec isDigit cs
  unfold scanNumeral at h
  dsimp only at h
  split at h
  · next tail hp =>
    obtain ⟨htail, hf, -⟩ := span_spec isDigit tail
    obtain ⟨es, he, hes⟩ := exponentText_scanExponent (tail.dropWhile isDigit)
    split at h
    · cases h
    · next hne =>
      cases h
      refine ⟨_, .pointed hd hf hne he, ?_⟩
      simp only [List.append_assoc, List.cons_append]
      rw [← hes, ← htail, ← hp, ← hcs]
  · obtain ⟨es, he, hes⟩ := exponentText_scanExponent (cs.dropWhile isDigit)
    split at h
    · cases h
    · next hne =>
      cases h
      refine ⟨_, .whole ⟨hne, hd⟩ he, ?_⟩
      rw [List.append_assoc, ← hes, ← hcs]

def isNumeralChar (c : Char) : Bool := continues c || c = '+' || c = '-'

theorem isNumeralChar_of_isDigit (h : isDigit c) : isNumeralChar c := by
  simp [isNumeralChar, continues, h]

theorem ExponentText.isNumeralChar {e : Option Int} (h : ExponentText v e) :
    ∀ c ∈ v, isNumeralChar c := by
  cases h with
  | none => simp
  | some he hs hd =>
    intro c hc
    rcases List.mem_cons.1 hc with rfl | hc
    · rcases he with rfl | rfl <;> rfl
    · rcases List.mem_append.1 hc with hc | hc
      · cases hs <;> simp_all [Decimal.isNumeralChar]
      · exact isNumeralChar_of_isDigit (hd.2 c hc)

theorem NumeralText.isNumeralChar {n : Numeral} (h : NumeralText v n) :
    ∀ c ∈ v, isNumeralChar c := by
  intro c hc
  cases h with
  | whole hd he =>
    rcases List.mem_append.1 hc with hc | hc
    · exact isNumeralChar_of_isDigit (hd.2 c hc)
    · exact he.isNumeralChar c hc
  | pointed hd hf hne he =>
    rcases List.mem_append.1 hc with hc | hc
    · exact isNumeralChar_of_isDigit (hd c hc)
    · rcases List.mem_cons.1 hc with rfl | hc
      · rfl
      · rcases List.mem_append.1 hc with hc | hc
        · exact isNumeralChar_of_isDigit (hf c hc)
        · exact he.isNumeralChar c hc

def isNumeralStart (c : Char) : Bool := isDigit c || c = '.'

theorem NumeralText.exists_cons {n : Numeral} (h : NumeralText v n) :
    ∃ c tail, v = c :: tail ∧ isNumeralStart c := by
  cases h with
  | @whole ds es e hd he =>
    obtain ⟨c, tail, rfl⟩ := List.exists_cons_of_ne_nil hd.1
    exact ⟨c, _, rfl, by simp [isNumeralStart, hd.2 c]⟩
  | @pointed ds fs es e hd hf hne he =>
    cases ds with
    | nil => exact ⟨'.', _, rfl, rfl⟩
    | cons c tail => exact ⟨c, _, rfl, by simp [isNumeralStart, hd c]⟩

theorem Unsigned.of_isNumeralStart (h : isNumeralStart c) : Unsigned c := by
  rcases Bool.or_eq_true_iff.1 h with h | h
  · exact .of_isDigit h
  · rw [of_decide_eq_true h]
    exact unsigned_point

theorem toLower_of_isNumeralStart (h : isNumeralStart c) : c.toLower = c := by
  rcases Bool.or_eq_true_iff.1 h with h | h
  · rw [isDigit_iff] at h
    unfold Char.toLower
    rw [dif_neg]
    simp only [ge_iff_le, UInt32.le_iff_toNat_le]
    intro hu
    exact absurd (Nat.le_trans hu.1 h.2) (by decide)
  · rw [of_decide_eq_true h]
    rfl

theorem toLower_ne_of_isNumeralStart {d : Char} (h : isNumeralStart c)
    (hd : isNumeralStart d = false) : c.toLower ≠ d := by
  rw [toLower_of_isNumeralStart h]
  rintro rfl
  rw [h] at hd
  cases hd

theorem float?_append {n : Numeral} (hs : SignText v negative) (h : scanNumeral cs = some (n, [])) :
    float? (v ++ cs) = some (if negative then -n.toFloat else n.toFloat) := by
  obtain ⟨w, hn, rfl⟩ := of_scanNumeral h
  obtain ⟨c, tail, rfl, hc⟩ := hn.exists_cons
  have hi : c.toLower ≠ 'i' := toLower_ne_of_isNumeralStart hc rfl
  have hna : c.toLower ≠ 'n' := toLower_ne_of_isNumeralStart hc rfl
  rw [List.cons_append] at h ⊢
  simp only [float?, scanSign_append hs (.of_isNumeralStart hc), List.map_cons, List.cons.injEq, hi,
    hna, false_and, if_false, h, Option.map_some]

section Match

variable {α : Type} {k : List Char → Option α} {e : Option Int} {n : Numeral}

theorem run_exponent_append (h : ExponentText v e) (ht : Stops continues tail) :
    (Regex.optional exponent).run (v ++ tail) some = some tail := by
  cases h with
  | none =>
    refine Regex.run_or_right ?_
    cases tail with
    | nil => rfl
    | cons c tail =>
      have hc : ¬ (c = 'e' ∨ c = 'E') := by
        rintro (rfl | rfl)
        · exact absurd (stops_cons.1 ht) (by decide)
        · exact absurd (stops_cons.1 ht) (by decide)
      rw [exponent, List.nil_append, Regex.run]
      exact run_letter_of_ne hc _
  | @some e sign ds negative he hs hd =>
    refine Regex.run_or_left ?_
    obtain ⟨d, rest, rfl⟩ := List.exists_cons_of_ne_nil hd.1
    have hdigits : (Regex.plus isDigit).run (d :: (rest ++ tail)) some = some tail :=
      Regex.run_plus_append hd.1 hd.2 ht.of_continues rfl
    rw [exponent, List.cons_append, List.append_assoc, Regex.run, run_letter_cons he]
    exact run_sign_append hs (.of_isDigit (hd.2 d (by simp))) hdigits

theorem run_numeral_append (h : NumeralText v n) (ht : Stops continues tail) :
    numeral.run (v ++ tail) some = some tail := by
  cases h with
  | @whole ds es e hd he =>
    rw [numeral, Regex.run, List.append_assoc]
    refine Regex.run_or_left (Regex.run_plus_append hd.1 hd.2 (he.stops ht) ?_)
    -- neither an exponent nor what stops a numeral begins with a point
    have hpoint (k : List Char → Option (List Char)) :
        (Regex.char (· = '.')).run (es ++ tail) k = none := by
      refine Regex.run_char_of_stops ?_
      cases he with
      | none => exact ht.mono fun c hc => by simp_all [continues]
      | some he => rcases he with rfl | rfl <;> exact stops_cons.2 (by decide)
    rw [Regex.run, Regex.optional, Regex.run_or_right (hpoint _)]
    exact Regex.run_many_of_stops (he.stops ht) (run_exponent_append he ht)
  | @pointed ds fs es e hd hf hne he =>
    have hexponent := run_exponent_append he ht
    rw [numeral, Regex.run, List.append_assoc, List.cons_append, List.append_assoc]
    by_cases hds : ds = []
    · subst hds
      have hfs : fs ≠ [] := fun hfs => hne ⟨rfl, hfs⟩
      refine (Regex.run_or_right ?_).trans (Regex.run_plus_append hfs hf (he.stops ht) hexponent)
      exact Regex.run_plus_of_stops (stops_cons.2 (by decide))
    · refine Regex.run_or_left (Regex.run_plus_append hds hd (stops_cons.2 (by decide)) ?_)
      exact Regex.run_or_left (Regex.run_many_append hf (he.stops ht) hexponent)

theorem run_number_of_ne (hi : ¬ (c = 'i' ∨ c = 'I')) (hn : ¬ (c = 'n' ∨ c = 'N')) :
    number.run (c :: cs) k = numeral.run (c :: cs) k := by
  have hword {d : Char} (hd : ¬ (c = d ∨ c = d.toUpper)) (ds : List Char) :
      (Regex.word (d :: ds)).run (c :: cs) k = none := by
    rw [Regex.word, Regex.run]
    exact run_letter_of_ne hd _
  rw [number, Regex.run_or_right (hword hi _), Regex.run_or_right (hword hi _),
    Regex.run_or_right (hword hn _)]

theorem run_number_append (h : NumeralText v n) (ht : Stops continues tail) :
    number.run (v ++ tail) some = some tail := by
  rw [← run_numeral_append h ht]
  obtain ⟨c, w, rfl, hc⟩ := h.exists_cons
  have hne (d : Char) (hd : isNumeralStart d = false) : c ≠ d := by
    rintro rfl
    rw [hc] at hd
    cases hd
  exact run_number_of_ne (not_or.2 ⟨hne 'i' rfl, hne 'I' rfl⟩) (not_or.2 ⟨hne 'n' rfl, hne 'N' rfl⟩)

theorem run_sign_number_of_isBlank (hc : Text.isBlank c) :
    (Regex.seq sign number).run (c :: cs) k = none := by
  have hne (d : Char) (hd : Text.isBlank d = false) : c ≠ d := by
    rintro rfl
    rw [hc] at hd
    cases hd
  have hdigit : isDigit c = false := by
    by_contra hd
    exact absurd (Unsigned.of_isDigit (by simpa using hd)).isBlank (by simp [hc])
  have hsign (k : List Char → Option α) : (Regex.char fun c => c = '+' || c = '-').run (c :: cs) k = none :=
    Regex.run_char_of_stops (stops_cons.2 (by simp [hne '+' rfl, hne '-' rfl]))
  have hplus (k : List Char → Option α) : (Regex.plus isDigit).run (c :: cs) k = none :=
    Regex.run_plus_of_stops (stops_cons.2 hdigit)
  rw [Regex.run, sign, Regex.optional, Regex.run_or_right (hsign _), Regex.run,
    run_number_of_ne (not_or.2 ⟨hne 'i' rfl, hne 'I' rfl⟩) (not_or.2 ⟨hne 'n' rfl, hne 'N' rfl⟩), numeral,
    Regex.run]
  refine (Regex.run_or_right ?_).trans (Regex.run_char_of_stops (stops_cons.2 (by simp [hne '.' rfl])))
  exact hplus _

end Match

theorem not_isBlank_of_isNumeralChar (h : isNumeralChar c) : Text.isBlank c = false := by
  simp only [isNumeralChar, continues, Bool.or_eq_true, decide_eq_true_eq] at h
  rcases h with ((((h | rfl) | rfl) | rfl) | rfl) | rfl
  · exact (Unsigned.of_isDigit h).isBlank
  all_goals decide

theorem floatPrefix?_of_run {w : List Char} (hs : SignText v negative) (hc : Unsigned c)
    (hw : ∀ d ∈ c :: w, Text.isBlank d = false) (h : number.run (c :: (w ++ rest)) some = some rest) :
    floatPrefix? (v ++ c :: (w ++ rest)) = float? (v ++ c :: w) := by
  have hrun : (Regex.seq blanks (.seq sign number)).run (v ++ c :: (w ++ rest)) some = some rest := by
    rw [Regex.run]
    refine run_blanks_append hs hc ?_
    rw [Regex.run]
    exact run_sign_append hs hc h
  have hbefore : before rest (v ++ c :: (w ++ rest)) = v ++ c :: w := by
    rw [← List.cons_append, ← List.append_assoc, before_append]
  have htrim : Text.trim (v ++ c :: w) = v ++ c :: w := by
    refine Text.trim_of_not_blank fun d hd => ?_
    rcases List.mem_append.1 hd with hd | hd
    · cases hs with
      | none => cases hd
      | plus => rw [List.mem_singleton.1 hd]; decide
      | minus => rw [List.mem_singleton.1 hd]; decide
    · exact hw d hd
  rw [floatPrefix?, hrun, Option.bind_some, hbefore, htrim]

theorem floatPrefix?_append {n : Numeral} (hs : SignText v negative) {w : List Char} (hn : NumeralText w n)
    (ht : Stops continues tail) :
    floatPrefix? (v ++ (w ++ tail)) = some (if negative then -n.toFloat else n.toFloat) := by
  obtain ⟨c, u, rfl, hc⟩ := hn.exists_cons
  have hscan := scanNumeral_append hn (stops_nil _)
  rw [List.append_nil] at hscan
  rw [← float?_append hs hscan]
  exact floatPrefix?_of_run hs (.of_isNumeralStart hc)
    (fun d hd => not_isBlank_of_isNumeralChar (hn.isNumeralChar d hd)) (run_number_append hn ht)

theorem floatPrefix?_nan (rest : List Char) :
    floatPrefix? ('N' :: 'a' :: 'N' :: rest) = some notANumber := by
  have hrun : number.run ('N' :: (['a', 'N'] ++ rest)) some = some rest := rfl
  exact floatPrefix?_of_run .none ⟨by decide, by decide, by decide⟩
    (List.forall_mem_cons.2 ⟨rfl, List.forall_mem_cons.2 ⟨rfl, List.forall_mem_singleton.2 rfl⟩⟩) hrun

def Spells (c d : Char) : Prop := c = d ∨ c = d.toUpper

theorem exists_of_run_word {α : Type} {k : List Char → Option α} {a : α} {ds : List Char}
    (h : (Regex.word ds).run cs k = some a) :
    ∃ w rest, cs = w ++ rest ∧ List.Forall₂ Spells w ds ∧ k rest = some a := by
  induction ds generalizing cs with
  | nil => exact ⟨[], cs, rfl, .nil, h⟩
  | cons d ds ih =>
    rw [Regex.word, Regex.run] at h
    cases cs with
    | nil => cases h
    | cons c cs =>
      by_cases hc : Spells c d
      · rw [run_letter_cons hc] at h
        obtain ⟨w, rest, rfl, hw, hk⟩ := ih h
        exact ⟨c :: w, rest, rfl, .cons hc hw, hk⟩
      · rw [run_letter_of_ne hc] at h
        cases h

theorem forall_of_spells {p : Char → Prop} {w ds : List Char} (h : List.Forall₂ Spells w ds)
    (hp : ∀ d ∈ ds, p d ∧ p d.toUpper) : ∀ c ∈ w, p c := by
  induction h with
  | nil => simp
  | cons hc _ ih =>
    rw [List.forall_mem_cons] at hp ⊢
    refine ⟨?_, ih hp.2⟩
    rcases hc with rfl | rfl
    · exact hp.1.1
    · exact hp.1.2

theorem map_toLower_of_spells {w ds : List Char} (h : List.Forall₂ Spells w ds)
    (hd : ∀ d ∈ ds, d.toLower = d ∧ d.toUpper.toLower = d) : w.map Char.toLower = ds := by
  induction h with
  | nil => rfl
  | cons hc _ ih =>
    rw [List.forall_mem_cons] at hd
    rw [List.map_cons, ih hd.2]
    rcases hc with rfl | rfl
    · rw [hd.1.1]
    · rw [hd.1.2]

theorem floatPrefix?_inf (hs : SignText v negative) (rest : List Char) :
    floatPrefix? (v ++ 'i' :: 'n' :: 'f' :: rest) = some (if negative then -infinity else infinity) := by
  have hu : Unsigned 'i' := ⟨by decide, by decide, by decide⟩
  have hlong : (Regex.word ['i', 'n', 'f', 'i', 'n', 'i', 't', 'y']).run ('i' :: (['n', 'f'] ++ rest)) some =
      (Regex.word ['i', 'n', 'i', 't', 'y']).run rest some := rfl
  cases hword : (Regex.word ['i', 'n', 'i', 't', 'y']).run rest some with
  | none =>
    have hrun : number.run ('i' :: (['n', 'f'] ++ rest)) some = some rest := by
      rw [number, Regex.run_or_right (hlong.trans hword)]
      rfl
    have hblank : ∀ d ∈ ['i', 'n', 'f'], Text.isBlank d = false :=
      List.forall_mem_cons.2 ⟨rfl, List.forall_mem_cons.2 ⟨rfl, List.forall_mem_singleton.2 rfl⟩⟩
    refine (floatPrefix?_of_run hs hu hblank hrun).trans ?_
    cases hs <;> rfl
  | some ending =>
    have hrun : number.run ('i' :: (['n', 'f'] ++ rest)) some = some ending :=
      Regex.run_or_left (hlong.trans hword)
    obtain ⟨w, ending, rfl, hw, he⟩ := exists_of_run_word hword
    cases he
    have hblank : ∀ d ∈ 'i' :: ('n' :: 'f' :: w), Text.isBlank d = false := by
      have hrest : ∀ d ∈ w, Text.isBlank d = false := by
        refine forall_of_spells hw ?_
        simp only [List.forall_mem_cons, List.not_mem_nil, false_imp_iff, implies_true]
        decide
      simpa using ⟨by decide, by decide, by decide, hrest⟩
    have hlower : w.map Char.toLower = ['i', 'n', 'i', 't', 'y'] := by
      refine map_toLower_of_spells hw ?_
      simp only [List.forall_mem_cons, List.not_mem_nil, false_imp_iff, implies_true]
      decide
    refine (floatPrefix?_of_run hs hu hblank hrun).trans ?_
    have hmap : ('i' :: 'n' :: 'f' :: w).map Char.toLower = ['i', 'n', 'f', 'i', 'n', 'i', 't', 'y'] := by
      simp [hlower]
    simp [float?, scanSign_append hs hu, hmap]

theorem floatPrefix?_blank (cs : List Char) : floatPrefix? (' ' :: cs) = floatPrefix? cs := by
  have hpass (cs : List Char) : (Regex.seq blanks (.seq sign number)).run cs some =
      (Regex.seq sign number).run (Text.trimStart cs) some := by
    rw [Regex.run]
    exact Regex.run_many (fun c cs hc => run_sign_number_of_isBlank hc) cs
  rw [floatPrefix?, floatPrefix?, hpass, hpass]
  change ((Regex.seq sign number).run (Text.trimStart cs) some).bind _ = _
  cases hrun : (Regex.seq sign number).run (Text.trimStart cs) some with
  | none => rfl
  | some rest =>
    obtain ⟨ds, rest, hds, he⟩ := Regex.exists_of_run hrun
    cases he
    have hcs : cs = cs.takeWhile Text.isBlank ++ ds ++ rest := by
      rw [List.append_assoc, ← hds]
      exact List.takeWhile_append_dropWhile.symm
    rw [Option.bind_some, Option.bind_some, hcs, ← List.cons_append, before_append, before_append]
    rfl

end Decimal

end PrimScript
