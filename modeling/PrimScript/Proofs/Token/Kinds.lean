import Mathlib.Data.Option.Basic
import PrimScript.Proofs.Decimal.Numeral
import PrimScript.Token.Lexer

/-! The kinds of tokens, and the readers that they come from. -/

namespace PrimScript.Token

variable {cs rest : List Char} {t : Token}

def isComment : Token → Bool
  | .lineComment _ => true
  | .blockComment _ => true
  | _ => false

def isString : Token → Bool
  | .string _ => true
  | _ => false

def isWord : Token → Bool
  | .keyword _ => true
  | .type _ => true
  | .ident _ => true
  | _ => false

theorem oneOf_cons {set : List Char} {c : Char} (h : c ∈ set) (cs : List Char) :
    oneOf set (c :: cs) = some cs :=
  if_pos h

theorem oneOf_of_not_mem {set : List Char} {c : Char} (h : c ∉ set) (cs : List Char) :
    oneOf set (c :: cs) = none := if_neg h

def afterSuffix (cs : List Char) : List Char := opt (oneOf ['f', 'F']) cs

theorem afterSuffix_cons {c : Char} (h : c = 'f' ∨ c = 'F') (cs : List Char) : afterSuffix (c :: cs) = cs := by
  rw [afterSuffix, opt, oneOf_cons (by simpa using h), Option.getD_some]

theorem afterSuffix_of_ne {c : Char} (h : ¬ (c = 'f' ∨ c = 'F')) (cs : List Char) :
    afterSuffix (c :: cs) = c :: cs := by
  rw [afterSuffix, opt, oneOf_of_not_mem (by simpa using h), Option.getD_none]

theorem exists_append_afterSuffix (cs : List Char) :
    cs = afterSuffix cs ∨ ∃ c, (c = 'f' ∨ c = 'F') ∧ cs = c :: afterSuffix cs := by
  cases cs with
  | nil => exact .inl rfl
  | cons c cs =>
    by_cases hc : c = 'f' ∨ c = 'F'
    · exact .inr ⟨c, hc, by rw [afterSuffix_cons hc]⟩
    · exact .inl (afterSuffix_of_ne hc cs).symm

theorem opt_sign (cs : List Char) : opt (oneOf ['+', '-']) cs = (Decimal.scanSign cs).2 := by
  unfold Decimal.scanSign
  split
  · rfl
  · rfl
  · next hm hp =>
    cases cs with
    | nil => rfl
    | cons c cs =>
      have hc : c ∉ ['+', '-'] := by
        simp only [List.mem_cons, List.not_mem_nil, or_false]
        rintro (rfl | rfl)
        · exact hp cs rfl
        · exact hm cs rfl
      rw [opt, oneOf_of_not_mem hc, Option.getD_none]

theorem exponent_eq (cs : List Char) : exponent cs =
    if (Decimal.scanExponent cs).1.isSome then some (Decimal.scanExponent cs).2 else none := by
  cases cs with
  | nil => rfl
  | cons c cs =>
    by_cases hc : c = 'e' ∨ c = 'E'
    · have hmem : c ∈ ['e', 'E'] := by simpa using hc
      simp only [exponent, oneOf_cons hmem, Option.bind_eq_bind, Option.bind_some, opt_sign, digit1, digit0,
        Decimal.scanExponent, if_pos hc]
      cases (Decimal.scanSign cs).2.takeWhile Decimal.isDigit <;> rfl
    · have hmem : c ∉ ['e', 'E'] := by simpa using hc
      simp [exponent, oneOf_of_not_mem hmem, Decimal.scanExponent, hc]

theorem opt_exponent (cs : List Char) : opt exponent cs = (Decimal.scanExponent cs).2 := by
  rw [opt, exponent_eq]
  split
  · rfl
  · next hn =>
    rw [Option.getD_none]
    obtain ⟨v, hv, hcs⟩ := Decimal.exponentText_scanExponent cs
    cases h : (Decimal.scanExponent cs).1 with
    | none =>
      rw [h] at hv
      cases hv
      exact hcs
    | some e => simp [h] at hn

theorem floatText_eq (cs : List Char) : floatText cs = (Decimal.scanNumeral cs).bind fun (n, rest) =>
    if n.point || n.exponent.isSome then some rest else none := by
  by_cases hw : cs.takeWhile Decimal.isDigit = []
  · have hcs : cs.dropWhile Decimal.isDigit = cs := by
      conv_rhs => rw [← List.takeWhile_append_dropWhile (p := Decimal.isDigit) (l := cs), hw, List.nil_append]
    simp only [floatText, digit1, hw, if_true, Decimal.scanNumeral, hcs]
    cases cs with
    | nil => rfl
    | cons c cs =>
      by_cases hc : c = '.'
      · subst hc
        by_cases hf : cs.takeWhile Decimal.isDigit = []
        · simp [oneOf, hf, -List.takeWhile_eq_nil_iff]
        · simp [oneOf, hf, opt_exponent, digit0, -List.takeWhile_eq_nil_iff]
      · simp [oneOf, hc]
  · obtain ⟨hcs, hd, -⟩ := Decimal.span_spec Decimal.isDigit cs
    have hpoint : oneOf ['.'] cs = none := by
      cases cs with
      | nil => rfl
      | cons c cs =>
        refine oneOf_of_not_mem (fun hc => hw ?_) cs
        rw [List.mem_singleton.1 hc]
        rfl
    simp only [floatText, digit1, hw, if_false, digit0, hpoint, Decimal.scanNumeral]
    cases cs.dropWhile Decimal.isDigit with
    | nil => rfl
    | cons c rest =>
      by_cases hc : c = '.'
      · subst hc
        simp [oneOf, opt_exponent, -List.takeWhile_eq_nil_iff]
      · have hmem : oneOf ['.'] (c :: rest) = none := oneOf_of_not_mem (by simpa using hc) rest
        simp [hmem, hc, exponent_eq, -List.takeWhile_eq_nil_iff]

theorem scanFloat_eq (cs : List Char) :
    scanFloat cs = (Decimal.scanNumeral cs).bind fun (n, rest) =>
      if n.point || n.exponent.isSome then some (.float n.toFloat, afterSuffix rest) else none := by
  rw [scanFloat, floatText_eq]
  cases hn : Decimal.scanNumeral cs with
  | none => rfl
  | some r =>
    obtain ⟨n, rest⟩ := r
    obtain ⟨v, hv, rfl⟩ := Decimal.of_scanNumeral hn
    have hs := Decimal.scanNumeral_append hv (Decimal.stops_nil _)
    rw [List.append_nil] at hs
    have hf := Decimal.float?_append .none hs
    rw [List.nil_append] at hf
    dsimp only [Option.bind_some]
    split
    · rw [Option.map_some, Decimal.before_append, hf]
      rfl
    · rfl

theorem scanFloat_eq_some_iff {t : Token} {cs rest : List Char} : scanFloat cs = some (t, rest) ↔
    ∃ n tail, Decimal.scanNumeral cs = some (n, tail) ∧ (n.point || n.exponent.isSome) ∧
      t = .float n.toFloat ∧ rest = afterSuffix tail := by
  rw [scanFloat_eq, Option.bind_eq_some_iff]
  constructor
  · rintro ⟨⟨n, tail⟩, hn, h⟩
    dsimp only at h
    split at h
    · next hp =>
      cases h
      exact ⟨n, tail, hn, hp, rfl, rfl⟩
    · cases h
  · rintro ⟨n, tail, hn, hp, rfl, rfl⟩
    exact ⟨(n, tail), hn, if_pos hp⟩

theorem ofDigits_eq (base : Nat) (ds : List Char) :
    ofDigits base ds = .integer (Decimal.wrapInteger (Decimal.ofDigits base ds)) :=
  congrArg Token.integer (Decimal.clamp_word? base ds)

theorem scanHexadecimal_eq (cs : List Char) : scanHexadecimal cs =
    (Decimal.scanHexadecimal cs).map fun (n, rest) => (.integer (Decimal.wrapInteger n), rest) := by
  unfold scanHexadecimal
  split
  · next x cs =>
    rw [Decimal.scanHexadecimal]
    by_cases hx : x = 'x' ∨ x = 'X'
    · rw [if_pos hx]
      split
      · next hd => rw [if_neg (by simp [hd, -List.takeWhile_eq_nil_iff])]; rfl
      · next hd => rw [if_pos ⟨hx, hd⟩, ofDigits_eq]; rfl
    · rw [if_neg hx, if_neg (not_and_of_not_left _ hx)]
      rfl
  · next hne => rw [Decimal.scanHexadecimal.eq_2 _ hne]; rfl

theorem before_digit0 (cs : List Char) : Decimal.before (digit0 cs) cs = cs.takeWhile Decimal.isDigit := by
  have hcs : cs.takeWhile Decimal.isDigit ++ digit0 cs = cs := List.takeWhile_append_dropWhile
  exact (congrArg (Decimal.before (digit0 cs)) hcs.symm).trans (Decimal.before_append _ _)

theorem scanInteger_eq (cs : List Char) : scanInteger cs =
    (Decimal.scanInteger cs).map fun (n, rest) => (.integer (Decimal.wrapInteger n), rest) := by
  have hdecimal : ((digit1 cs).map fun rest => (ofDigits 10 (Decimal.before rest cs), rest)) =
      (Decimal.scanDecimal cs).map fun (n, rest) => (.integer (Decimal.wrapInteger n), rest) := by
    unfold digit1 Decimal.scanDecimal
    split
    · rfl
    · rw [Option.map_some, before_digit0, ofDigits_eq]
      rfl
  rw [scanInteger, scanHexadecimal_eq, hdecimal, Decimal.scanInteger, Option.orElse_eq_orElse,
    Option.orElse_eq_or, Option.map_or]

theorem scanFloat_of_start {c : Char} (hc : Decimal.isNumeralStart c = false) (cs : List Char) :
    scanFloat (c :: cs) = none := by
  rw [scanFloat_eq]
  cases hn : Decimal.scanNumeral (c :: cs) with
  | none => rfl
  | some r =>
    obtain ⟨v, hv, hcs⟩ := Decimal.of_scanNumeral hn
    obtain ⟨d, w, rfl, hd⟩ := hv.exists_cons
    rw [(List.cons.inj hcs).1, hd] at hc
    cases hc

theorem scanInteger_of_start {c : Char} (hc : Decimal.isDigit c = false) (cs : List Char) :
    scanInteger (c :: cs) = none := by
  rw [scanInteger_eq]
  cases hn : Decimal.scanInteger (c :: cs) with
  | none => rfl
  | some r =>
    obtain ⟨d, w, hcs, hd⟩ := Decimal.exists_digit_of_scanInteger hn
    rw [(List.cons.inj hcs).1, hd] at hc
    cases hc

inductive ReadBy (cs rest : List Char) : Token → Prop
  | blanks {s : String} (h : scanBlanks cs = some (.blanks s, rest)) : ReadBy cs rest (.blanks s)
  | newline (h : scanNewline cs = some (.newline, rest)) : ReadBy cs rest .newline
  | comment {t : Token} (ht : t.isComment) (h : scanComment cs = some (t, rest)) : ReadBy cs rest t
  | string {s : String} (h : scanString cs = some (.string s, rest)) : ReadBy cs rest (.string s)
  | float {x : Float} (h : scanFloat cs = some (.float x, rest)) : ReadBy cs rest (.float x)
  | integer {n : Int32} (h : scanInteger cs = some (.integer n, rest)) : ReadBy cs rest (.integer n)
  | word {t : Token} (ht : t.isWord) (h : scanWord cs = some (t, rest)) : ReadBy cs rest t
  | symbol {s : Symbol} (h : scanSymbol cs = some (.symbol s, rest)) : ReadBy cs rest (.symbol s)
  | delimiter {d : Delimiter} (h : scanDelimiter cs = some (.delimiter d, rest)) :
      ReadBy cs rest (.delimiter d)

theorem readBy_of_scanBlanks (h : scanBlanks cs = some (t, rest)) : ReadBy cs rest t := by
  have hb := h
  unfold scanBlanks at h
  split at h
  · cases h
  · cases h
    exact .blanks hb

theorem scanNewline_of_ne {c : Char} (hr : c ≠ '\r') (hn : c ≠ '\n') (cs : List Char) :
    scanNewline (c :: cs) = none := by
  unfold scanNewline
  split
  · next he => exact absurd (List.cons.inj he).1 hr
  · next he => exact absurd (List.cons.inj he).1 hn
  · rfl

theorem readBy_of_scanNewline (h : scanNewline cs = some (t, rest)) : ReadBy cs rest t := by
  have hn := h
  unfold scanNewline at h
  split at h
  · cases h
    exact .newline hn
  · cases h
    exact .newline hn
  · cases h

theorem isComment_of_scanComment (h : scanComment cs = some (t, rest)) : t.isComment := by
  unfold scanComment at h
  split at h
  · obtain ⟨_, -, he⟩ := Option.map_eq_some_iff.1 h
    cases he
    rfl
  · obtain ⟨_, -, he⟩ := Option.map_eq_some_iff.1 h
    cases he
    rfl
  · cases h

theorem readBy_of_scanString (h : scanString cs = some (t, rest)) : ReadBy cs rest t := by
  have hs := h
  unfold scanString at h
  split at h
  · obtain ⟨_, -, he⟩ := Option.map_eq_some_iff.1 h
    cases he
    exact .string hs
  · cases h

theorem readBy_of_scanFloat (h : scanFloat cs = some (t, rest)) : ReadBy cs rest t := by
  have hf := h
  obtain ⟨_, -, he⟩ := Option.map_eq_some_iff.1 h
  cases he
  exact .float hf

theorem readBy_of_scanInteger (h : scanInteger cs = some (t, rest)) : ReadBy cs rest t := by
  have hi := h
  rw [scanInteger_eq] at h
  obtain ⟨_, -, he⟩ := Option.map_eq_some_iff.1 h
  cases he
  exact .integer hi

theorem isWord_ofWord (word : String) : (ofWord word).isWord := by
  unfold ofWord
  split
  · rfl
  · split <;> rfl

theorem readBy_of_scanWord (h : scanWord cs = some (t, rest)) : ReadBy cs rest t := by
  refine .word ?_ h
  unfold scanWord at h
  split at h
  · cases h
  · split at h
    · cases h
      exact isWord_ofWord _
    · cases h

theorem readBy_of_scanSymbol (h : scanSymbol cs = some (t, rest)) : ReadBy cs rest t := by
  obtain ⟨s, -, hs⟩ := List.exists_of_findSome?_eq_some h
  obtain ⟨_, -, he⟩ := Option.map_eq_some_iff.1 hs
  cases he
  exact .symbol h

theorem readBy_of_scanDelimiter (h : scanDelimiter cs = some (t, rest)) : ReadBy cs rest t := by
  have hd := h
  unfold scanDelimiter at h
  split at h
  · cases h
  · obtain ⟨_, -, he⟩ := Option.map_eq_some_iff.1 h
    cases he
    exact .delimiter hd

theorem readBy_of_scan (h : scan cs = some (t, rest)) : ReadBy cs rest t := by
  simp only [scan, Option.orElse_eq_some] at h
  rcases h with h | ⟨-, h | ⟨-, h | ⟨-, h | ⟨-, h | ⟨-, h | ⟨-, h | ⟨-, h | ⟨-, h⟩⟩⟩⟩⟩⟩⟩⟩
  · exact readBy_of_scanBlanks h
  · exact readBy_of_scanNewline h
  · exact .comment (isComment_of_scanComment h) h
  · exact readBy_of_scanString h
  · exact readBy_of_scanFloat h
  · exact readBy_of_scanInteger h
  · exact readBy_of_scanWord h
  · exact readBy_of_scanSymbol h
  · exact readBy_of_scanDelimiter h

theorem scan_sign {c : Char} (hc : c = '/' ∨ c = '-') (cs : List Char) :
    scan (c :: cs) =
      (scanComment (c :: cs)).or ((scanSymbol (c :: cs)).or (scanDelimiter (c :: cs))) := by
  have hstart : Decimal.isNumeralStart c = false ∧ Decimal.isDigit c = false := by
    rcases hc with rfl | rfl <;> decide
  have hf := scanFloat_of_start hstart.1 cs
  have hi := scanInteger_of_start hstart.2 cs
  rcases hc with rfl | rfl
  all_goals
    simp [scan, scanBlanks, isLineBlank, scanNewline, scanString, hf, hi, scanWord, isWordStart,
      Option.orElse_eq_or]

theorem scan_numeral {c : Char} (hc : Decimal.isNumeralStart c) (cs : List Char) :
    scan (c :: cs) =
      (scanFloat (c :: cs)).or ((scanInteger (c :: cs)).or
        ((scanWord (c :: cs)).or ((scanSymbol (c :: cs)).or (scanDelimiter (c :: cs))))) := by
  have hne (d : Char) (hd : Decimal.isNumeralStart d = false) : c ≠ d := by
    rintro rfl
    rw [hc] at hd
    cases hd
  have hb : scanBlanks (c :: cs) = none := by
    simp [scanBlanks, isLineBlank, hne ' ' rfl, hne '\t' rfl, hne '\r' rfl]
  have hn : scanNewline (c :: cs) = none := scanNewline_of_ne (hne '\r' rfl) (hne '\n' rfl) cs
  have hm : scanComment (c :: cs) = none := by simp [scanComment, hne '/' rfl]
  have hs : scanString (c :: cs) = none := by simp [scanString, hne '"' rfl]
  simp [scan, hb, hn, hm, hs, Option.orElse_eq_or]

end PrimScript.Token
