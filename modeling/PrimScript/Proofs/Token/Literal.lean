import PrimScript.Eval.Expr
import PrimScript.Proofs.Decimal.Numeral
import PrimScript.Proofs.Syntax.RoundTrip
import PrimScript.Proofs.Token.Kinds
import PrimScript.Proofs.Token.Tiling

/-! Literals and casts.  A text that is one literal is read as the number that its cast comes to,
with a minus before it too. -/

namespace PrimScript

open Decimal (IntegerText NumeralText isDigit wrapInteger)

variable {w : List Char} {n : Int32} {x : Float} {t : Token}

namespace Token

theorem scanFloat_of_integerText {k : Nat} (h : IntegerText w k) : scanFloat w = none := by
  -- the digits, or the zero before the `x`, are a numeral with neither point nor exponent
  have hnone {ds : List Char} (hd : Decimal.DigitText ds) {tail : List Char}
      (ht : Decimal.Stops Decimal.continues tail) : scanFloat (ds ++ tail) = none := by
    have hn := Decimal.scanNumeral_append (.whole hd .none) ht
    rw [List.append_nil] at hn
    rw [scanFloat_eq, hn]
    rfl
  rcases h.decimal_or_hexadecimal with ⟨hd, -⟩ | ⟨x, hs, hx, -, -, rfl, -⟩
  · simpa using hnone hd (Decimal.stops_nil _)
  · have hstop : Decimal.Stops Decimal.continues (x :: hs) := by
      rcases hx with rfl | rfl <;> simp [Decimal.continues, isDigit]
    have hzero : Decimal.DigitText ['0'] := ⟨by simp, by simp [isDigit]⟩
    exact hnone hzero hstop

theorem scan_eq_integer_iff :
    scan w = some (.integer n, []) ↔ ∃ k, IntegerText w k ∧ n = wrapInteger k := by
  constructor
  · intro h
    cases readBy_of_scan h with
    | comment ht => cases ht
    | word ht => cases ht
    | integer hr =>
      rw [scanInteger_eq] at hr
      obtain ⟨⟨k, rest⟩, hk, he⟩ := Option.map_eq_some_iff.1 hr
      cases he
      exact ⟨k, Decimal.scanInteger_eq_some_nil_iff.1 hk, rfl⟩
  · rintro ⟨k, hk, rfl⟩
    have hs := Decimal.scanInteger_eq_some_nil_iff.2 hk
    have hf := scanFloat_of_integerText hk
    obtain ⟨c, tail, rfl, hc⟩ := Decimal.exists_digit_of_scanInteger hs
    have hstart : Decimal.isNumeralStart c := by simp [Decimal.isNumeralStart, hc]
    rw [scan_numeral hstart, hf, Option.none_or, scanInteger_eq, hs]
    rfl

/-- The spellings of a floating point literal: `v` is a numeral with a point or an exponent, and an `f` may
come after it. -/
def FloatText (w v : List Char) : Prop :=
  (w = v ∨ w = v ++ ['f'] ∨ w = v ++ ['F']) ∧
    ∃ n, NumeralText v n ∧ (n.point ∨ n.exponent.isSome)

theorem FloatText.exists_append {v : List Char} (h : FloatText w v) :
    ∃ suffix, w = v ++ suffix ∧ afterSuffix suffix = [] ∧ Decimal.Stops Decimal.continues suffix := by
  rcases h.1 with rfl | rfl | rfl
  · exact ⟨[], by rw [List.append_nil], rfl, Decimal.stops_nil _⟩
  · exact ⟨['f'], rfl, rfl, by simp [Decimal.continues, isDigit]⟩
  · exact ⟨['F'], rfl, rfl, by simp [Decimal.continues, isDigit]⟩

theorem float?_of_numeralText {v : List Char} {n : Decimal.Numeral} (h : NumeralText v n) :
    Decimal.float? v = some n.toFloat := by
  have hs := Decimal.scanNumeral_append h (Decimal.stops_nil _)
  rw [List.append_nil] at hs
  exact Decimal.float?_append .none hs

theorem scanFloat_eq_nil_iff :
    scanFloat w = some (.float x, []) ↔ ∃ v, FloatText w v ∧ Decimal.float? v = some x := by
  constructor
  · intro h
    obtain ⟨n, tail, hn, hp, ht, hrest⟩ := scanFloat_eq_some_iff.1 h
    obtain ⟨v, hv, rfl⟩ := Decimal.of_scanNumeral hn
    cases ht
    refine ⟨v, ⟨?_, n, hv, by simpa using hp⟩, float?_of_numeralText hv⟩
    rcases exists_append_afterSuffix tail with he | ⟨f, hf, he⟩
    · rw [← hrest] at he
      exact .inl (by rw [he, List.append_nil])
    · rw [← hrest] at he
      subst he
      rcases hf with rfl | rfl
      · exact .inr (.inl rfl)
      · exact .inr (.inr rfl)
  · rintro ⟨v, h, hx⟩
    obtain ⟨suffix, rfl, hsuffix, hstop⟩ := h.exists_append
    obtain ⟨n, hn, hp⟩ := h.2
    rw [float?_of_numeralText hn] at hx
    cases hx
    exact scanFloat_eq_some_iff.2
      ⟨n, suffix, Decimal.scanNumeral_append hn hstop, by simpa using hp, rfl, hsuffix.symm⟩

theorem scan_eq_float_iff :
    scan w = some (.float x, []) ↔ ∃ v, FloatText w v ∧ Decimal.float? v = some x := by
  rw [← scanFloat_eq_nil_iff]
  constructor
  · intro h
    cases readBy_of_scan h with
    | comment ht => cases ht
    | word ht => cases ht
    | float hr => exact hr
  · intro h
    cases w with
    | nil => cases h
    | cons c tail =>
      cases hc : Decimal.isNumeralStart c with
      | false => simp [scanFloat_of_start hc] at h
      | true => rw [scan_numeral hc, h, Option.some_or]

end Token

namespace Lexeme

def IsToken (w : List Char) (t : Token) : Prop := (ofChars w).map (·.map (·.token)) = .ok [t]

theorem isToken_iff : IsToken w t ↔ Token.scan w = some (t, []) := by
  constructor
  · intro h
    have hr := reads_scanFrom .start w.length w (Nat.le_refl _)
    unfold IsToken ofChars at h
    cases hs : scanFrom .start w.length w with
    | error e =>
      rw [hs] at h
      cases h
    | ok ls =>
      rw [hs] at h hr
      obtain ⟨l, rfl, rfl⟩ := List.map_eq_singleton_iff.1 (Except.ok.inj h)
      generalize Position.start.after w = q at hr
      cases hr with
      | turn ht next =>
        cases next
        simpa using ht
  · intro h
    have hr : Reads .start (w ++ []) _ _ [] := .turn (by rwa [List.append_nil]) (.done _ _)
    rw [List.append_nil] at hr
    rw [IsToken, ofChars, hr.scanFrom (Nat.le_refl _)]
    rfl

theorem ofChars_minus (h : IsToken w (.integer n)) :
    ∃ ls, ofChars ('-' :: w) = .ok ls ∧ ls.map (·.token) = [.symbol .minus, .integer n] := by
  rw [isToken_iff] at h
  obtain ⟨k, hk, -⟩ := Token.scan_eq_integer_iff.1 h
  have hs := Decimal.scanInteger_eq_some_nil_iff.2 hk
  obtain ⟨c, tail, rfl, hc⟩ := Decimal.exists_digit_of_scanInteger hs
  have hminus : Token.scan ('-' :: c :: tail) = some (.symbol .minus, c :: tail) := by
    have hdash : ¬ '-' = c := by
      rintro rfl
      exact absurd hc (by decide)
    have hequal : ¬ '=' = c := by
      rintro rfl
      exact absurd hc (by decide)
    rw [Token.scan_sign (.inr rfl)]
    simp [Token.scanComment, Token.scanSymbol, Symbol.all, Symbol.chars, Text.dropPrefix?, hdash,
      hequal]
  have hr : Reads .start (['-'] ++ (c :: tail ++ [])) _ _ [] :=
    .turn (by simpa using hminus) (.turn (by simpa using h) (.done _ _))
  simp only [List.append_nil, List.cons_append, List.nil_append] at hr
  exact ⟨_, hr.scanFrom (Nat.le_refl _), rfl⟩

end Lexeme

namespace Value

theorem coerce_integer_of_text {k : Nat} (h : IntegerText w k) :
    (string (String.ofList w)).coerce .integer = .integer (wrapInteger k) := by
  have hs := Decimal.scanInteger_eq_some_nil_iff.2 h
  simpa [coerce, ofChars] using Decimal.integerPrefix_append .none hs

theorem coerce_integer_of_minus {k : Nat} (h : IntegerText w k) :
    (string ("-" ++ String.ofList w)).coerce .integer = .integer (-(wrapInteger k)) := by
  have hs := Decimal.scanInteger_eq_some_nil_iff.2 h
  simpa [coerce, ofChars] using Decimal.integerPrefix_append .minus hs

theorem coerce_float_of_text {v : List Char} (h : Token.FloatText w v) (hx : Decimal.float? v = some x) :
    (string (String.ofList w)).coerce .float = .float x := by
  obtain ⟨suffix, rfl, -, hstop⟩ := h.exists_append
  obtain ⟨n, hn, -⟩ := h.2
  rw [Token.float?_of_numeralText hn] at hx
  cases hx
  have hp := Decimal.floatPrefix?_append .none hn hstop
  rw [List.nil_append] at hp
  simp [coerce, ofChars, hp]

end Value

theorem Expr.eval_minus {ls : List Lexeme} (h : ls.map (·.token) = [.symbol .minus, .integer n]) :
    ∃ e, Expr.parse (Lexeme.significant ls) = .ok (e, []) ∧
      ∀ s hint m, (e.eval s hint).on m = (.ok (.integer (-n)), m) := by
  have hsignificant : Lexeme.significant ls = ls := by
    refine List.filter_eq_self.2 fun l hl => ?_
    have hmem : l.token ∈ ls.map (·.token) := List.mem_map_of_mem hl
    rw [h] at hmem
    simp only [List.mem_cons, List.not_mem_nil, or_false] at hmem
    rcases hmem with ht | ht <;> simp [ht, Token.isTrivia]
  have hparse : Expr.parse (ls ++ []) = .ok (.unary .negate (.literal (.integer n)), []) :=
    Expr.parse_of_ends h (by simp [StopsAt])
  rw [List.append_nil] at hparse
  refine ⟨_, hsignificant ▸ hparse, fun s hint m => ?_⟩
  simp [Expr.eval, Eval.unary, Value.applyUnary, Literal.value]

/-- Literals and casts read numbers alike: the integer or float that a whole text is read as is its
cast, and a minus and an integer come to the cast of the text with the minus.  These texts are
decimal or hexadecimal digits, and the numerals with a point or an exponent. -/
theorem literals_cast (w : List Char) :
    (∀ n, Lexeme.IsToken w (.integer n) →
      (Value.string (String.ofList w)).coerce .integer = .integer n ∧
      ∃ ls e, Lexeme.ofChars ('-' :: w) = .ok ls ∧
        Expr.parse (Lexeme.significant ls) = .ok (e, []) ∧
        ∀ s hint m, (e.eval s hint).on m =
          (.ok ((Value.string ("-" ++ String.ofList w)).coerce .integer), m)) ∧
    (∀ x, Lexeme.IsToken w (.float x) →
      (Value.string (String.ofList w)).coerce .float = .float x) ∧
    (∀ n, Lexeme.IsToken w (.integer n) ↔ ∃ k, IntegerText w k ∧ n = wrapInteger k) ∧
    ∀ x, Lexeme.IsToken w (.float x) ↔ ∃ v, Token.FloatText w v ∧ Decimal.float? v = some x := by
  refine ⟨fun n h => ?_, fun x h => ?_, fun n => ?_, fun x => ?_⟩
  · obtain ⟨ls, hls, htokens⟩ := Lexeme.ofChars_minus h
    obtain ⟨e, hparse, heval⟩ := Expr.eval_minus htokens
    rw [Lexeme.isToken_iff, Token.scan_eq_integer_iff] at h
    obtain ⟨k, hk, rfl⟩ := h
    refine ⟨Value.coerce_integer_of_text hk, ls, e, hls, hparse, ?_⟩
    rwa [Value.coerce_integer_of_minus hk]
  · rw [Lexeme.isToken_iff, Token.scan_eq_float_iff] at h
    obtain ⟨v, hv, hx⟩ := h
    exact Value.coerce_float_of_text hv hx
  · rw [Lexeme.isToken_iff, Token.scan_eq_integer_iff]
  · rw [Lexeme.isToken_iff, Token.scan_eq_float_iff]

def overlong : List Char := "0x1FFFFFFFF".toList

def pointed : List Char := "5.e1F".toList

def pointedFloat : Float := (Decimal.float? "5.e1".toList).getD 0

/-- A hexadecimal numeral of more than 32 bits, and a float with no digit after its point. -/
theorem literals_cast_overlong :
    Lexeme.IsToken overlong (.integer (-1)) ∧ Lexeme.IsToken pointed (.float pointedFloat) ∧
      (Value.string (String.ofList overlong)).coerce .integer = .integer (-1) ∧
      (Value.string (String.ofList pointed)).coerce .float = .float pointedFloat := by
  have hi : Lexeme.IsToken overlong (.integer (-1)) := by rfl
  have hf : Lexeme.IsToken pointed (.float pointedFloat) := by rfl
  exact ⟨hi, hf, ((literals_cast overlong).1 _ hi).1, (literals_cast pointed).2.1 _ hf⟩

end PrimScript
