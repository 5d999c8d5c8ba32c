import PrimScript.Proofs.Token.Kinds
import PrimScript.Proofs.Token.Quoted

/-! Reading a text whose lines end with a carriage return and a line feed.  Words, numbers and
symbols end before a line end of either kind and are read as without the carriage returns.  Strings
and comments may go on over it and take the carriage returns along; and blanks at the end of a line
take one as one of them, which is the only way to leave a text that begins with a bare line feed. -/

namespace PrimScript

namespace Text

def withReturns : List Char → List Char
  | [] => []
  | c :: cs => if c = '\n' then '\r' :: '\n' :: withReturns cs else c :: withReturns cs

variable {c : Char} {cs ds : List Char}

@[simp] theorem withReturns_nil : withReturns [] = [] := rfl

@[simp] theorem withReturns_newline (cs : List Char) :
    withReturns ('\n' :: cs) = '\r' :: '\n' :: withReturns cs := rfl

@[simp] theorem withReturns_cons (h : c ≠ '\n') : withReturns (c :: cs) = c :: withReturns cs :=
  if_neg h

@[simp] theorem withReturns_eq_nil_iff : withReturns cs = [] ↔ cs = [] := by
  cases cs with
  | nil => simp
  | cons c cs => by_cases hc : c = '\n' <;> simp [hc]

@[simp] theorem withReturns_append (cs ds : List Char) :
    withReturns (cs ++ ds) = withReturns cs ++ withReturns ds := by
  induction cs with
  | nil => rfl
  | cons c cs ih =>
    by_cases hc : c = '\n'
    · simp [hc, ih]
    · simp [hc, ih]

theorem withReturns_eq_self (h : '\n' ∉ cs) : withReturns cs = cs := by
  induction cs with
  | nil => rfl
  | cons c cs ih =>
    rw [List.mem_cons, not_or] at h
    rw [withReturns_cons (Ne.symm h.1), ih h.2]

theorem eq_cons_of_withReturns (hc : c ≠ '\r') (h : withReturns cs = c :: ds) :
    ∃ cs', cs = c :: cs' ∧ ds = withReturns cs' := by
  cases cs with
  | nil => cases h
  | cons b cs =>
    by_cases hb : b = '\n'
    · subst hb
      cases h
      contradiction
    · rw [withReturns_cons hb] at h
      cases h
      exact ⟨cs, rfl, rfl⟩

section Tests

variable {p : Char → Bool} (hn : p '\n' = false) (hr : p '\r' = false)
include hn hr

theorem takeWhile_withReturns (cs : List Char) :
    (withReturns cs).takeWhile p = cs.takeWhile p := by
  induction cs with
  | nil => rfl
  | cons c cs ih =>
    by_cases hc : c = '\n'
    · subst hc
      simp [hn, hr]
    · simp [List.takeWhile_cons, hc, ih]

theorem dropWhile_withReturns (cs : List Char) :
    (withReturns cs).dropWhile p = withReturns (cs.dropWhile p) := by
  induction cs with
  | nil => rfl
  | cons c cs ih =>
    by_cases hc : c = '\n'
    · subst hc
      simp [hn, hr]
    · by_cases hp : p c
      · simp [hc, hp, ih]
      · simp [hc, hp]

end Tests

theorem dropPrefix?_withReturns {ps : List Char} (hn : '\n' ∉ ps) (hr : '\r' ∉ ps) (cs : List Char) :
    dropPrefix? ps (withReturns cs) = (dropPrefix? ps cs).map withReturns := by
  induction ps generalizing cs with
  | nil => rfl
  | cons p ps ih =>
    rw [List.mem_cons, not_or] at hn hr
    cases cs with
    | nil => rfl
    | cons c cs =>
      by_cases hc : c = '\n'
      · subst hc
        simp [dropPrefix?, Ne.symm hn.1, Ne.symm hr.1]
      · by_cases hp : p = c
        · simp [dropPrefix?, hc, hp, ih hn.2 hr.2]
        · simp [dropPrefix?, hc, hp]

end Text

open Text (withReturns)

/-- Carriage returns before the line feeds of a text make no difference to the reader, but for
those in what it leaves. -/
def Blind {α : Type} (read : List Char → Option (α × List Char)) : Prop :=
  ∀ cs, read (withReturns cs) = (read cs).map fun r => (r.1, withReturns r.2)

theorem Blind.of_cons {α : Type} {read : List Char → Option (α × List Char)} (hnil : read [] = none)
    (hn : ∀ cs, read ('\n' :: cs) = none) (hr : ∀ cs, read ('\r' :: cs) = none)
    (h : ∀ c cs, c ≠ '\n' →
      read (c :: withReturns cs) = (read (c :: cs)).map fun r => (r.1, withReturns r.2)) :
    Blind read := by
  intro cs
  cases cs with
  | nil => rw [Text.withReturns_nil, hnil, Option.map_none]
  | cons c cs =>
    by_cases hc : c = '\n'
    · rw [hc, Text.withReturns_newline, hr, hn, Option.map_none]
    · rw [Text.withReturns_cons hc, h c cs hc]

namespace Decimal

theorem takeWhile_isDigit_withReturns (cs : List Char) :
    (withReturns cs).takeWhile isDigit = cs.takeWhile isDigit :=
  Text.takeWhile_withReturns (by decide) (by decide) cs

theorem dropWhile_isDigit_withReturns (cs : List Char) :
    (withReturns cs).dropWhile isDigit = withReturns (cs.dropWhile isDigit) :=
  Text.dropWhile_withReturns (by decide) (by decide) cs

theorem scanSign_withReturns (cs : List Char) :
    scanSign (withReturns cs) = ((scanSign cs).1, withReturns (scanSign cs).2) := by
  cases cs with
  | nil => rfl
  | cons c cs =>
    by_cases hc : c = '\n'
    · subst hc
      rfl
    · by_cases hm : c = '-'
      · simp [scanSign, hm]
      · by_cases hp : c = '+'
        · simp [scanSign, hp]
        · simp [scanSign, hc, hm, hp]

theorem scanExponent_withReturns (cs : List Char) :
    scanExponent (withReturns cs) = ((scanExponent cs).1, withReturns (scanExponent cs).2) := by
  cases cs with
  | nil => rfl
  | cons c cs =>
    by_cases hc : c = '\n'
    · subst hc
      rfl
    · simp only [Text.withReturns_cons hc, scanExponent, scanSign_withReturns,
        takeWhile_isDigit_withReturns, dropWhile_isDigit_withReturns]
      split
      · split
        · simp [hc]
        · rfl
      · simp [hc]

theorem scanNumeral_eq (cs : List Char) :
    scanNumeral cs =
      match Text.dropPrefix? ['.'] (cs.dropWhile isDigit) with
      | some rest =>
        if cs.takeWhile isDigit = [] ∧ rest.takeWhile isDigit = [] then none
        else some (⟨cs.takeWhile isDigit, rest.takeWhile isDigit, true,
          (scanExponent (rest.dropWhile isDigit)).1⟩, (scanExponent (rest.dropWhile isDigit)).2)
      | none =>
        if cs.takeWhile isDigit = [] then none
        else some (⟨cs.takeWhile isDigit, [], false, (scanExponent (cs.dropWhile isDigit)).1⟩,
          (scanExponent (cs.dropWhile isDigit)).2) := by
  unfold scanNumeral
  dsimp only
  split
  · next rest he => simp [he, Text.dropPrefix?]
  · next hne =>
    have hp : Text.dropPrefix? ['.'] (cs.dropWhile isDigit) = none := by
      rw [Option.eq_none_iff_forall_ne_some]
      intro rest he
      exact hne rest (Text.eq_append_of_dropPrefix? he)
    rw [hp]

theorem blind_scanNumeral : Blind scanNumeral := by
  intro cs
  rw [scanNumeral_eq, scanNumeral_eq, takeWhile_isDigit_withReturns, dropWhile_isDigit_withReturns,
    Text.dropPrefix?_withReturns (by decide) (by decide)]
  cases Text.dropPrefix? ['.'] (cs.dropWhile isDigit) with
  | none =>
    simp only [Option.map_none, scanExponent_withReturns]
    split <;> rfl
  | some rest =>
    simp only [Option.map_some, takeWhile_isDigit_withReturns, dropWhile_isDigit_withReturns,
      scanExponent_withReturns]
    split <;> rfl

theorem blind_scanDecimal : Blind scanDecimal := by
  intro cs
  rw [scanDecimal, scanDecimal, takeWhile_isDigit_withReturns, dropWhile_isDigit_withReturns]
  split <;> rfl

theorem scanHexadecimal_of_ne {c : Char} (hc : c ≠ '0') (cs : List Char) :
    scanHexadecimal (c :: cs) = none := by
  unfold scanHexadecimal
  split
  · next he => exact absurd (List.cons.inj he).1 hc
  · rfl

theorem blind_scanHexadecimal : Blind scanHexadecimal := by
  refine .of_cons rfl (fun _ => rfl) (fun _ => rfl) fun c cs _ => ?_
  by_cases hz : c = '0'
  · subst hz
    cases cs with
    | nil => rfl
    | cons x rest =>
      have hn : isHexDigit '\n' = false := by decide
      have hr : isHexDigit '\r' = false := by decide
      by_cases hx : x = '\n'
      · subst hx
        simp [scanHexadecimal]
      · simp only [Text.withReturns_cons hx, scanHexadecimal, Text.takeWhile_withReturns hn hr,
          Text.dropWhile_withReturns hn hr]
        split <;> rfl
  · rw [scanHexadecimal_of_ne hz, scanHexadecimal_of_ne hz, Option.map_none]

theorem blind_scanInteger : Blind scanInteger := by
  intro cs
  rw [scanInteger, scanInteger, blind_scanHexadecimal cs, blind_scanDecimal cs]
  cases scanHexadecimal cs <;> rfl

end Decimal

namespace Token

open Decimal (Stops stops_cons span_append span_spec)

theorem afterSuffix_withReturns (cs : List Char) :
    afterSuffix (withReturns cs) = withReturns (afterSuffix cs) := by
  cases cs with
  | nil => rfl
  | cons c cs =>
    by_cases hc : c = '\n'
    · subst hc
      rfl
    · rw [Text.withReturns_cons hc]
      by_cases hf : c = 'f' ∨ c = 'F'
      · rw [afterSuffix_cons hf, afterSuffix_cons hf]
      · rw [afterSuffix_of_ne hf, afterSuffix_of_ne hf, Text.withReturns_cons hc]

theorem blind_scanFloat : Blind scanFloat := by
  intro cs
  rw [scanFloat_eq, scanFloat_eq, Decimal.blind_scanNumeral cs]
  cases Decimal.scanNumeral cs with
  | none => rfl
  | some r =>
    simp only [Option.map_some, Option.bind_some, afterSuffix_withReturns]
    split <;> rfl

theorem blind_scanInteger : Blind scanInteger := by
  intro cs
  rw [scanInteger_eq, scanInteger_eq, Decimal.blind_scanInteger cs]
  cases Decimal.scanInteger cs <;> rfl

theorem blind_scanWord : Blind scanWord := by
  have hn : isWordChar '\n' = false := by decide
  have hr : isWordChar '\r' = false := by decide
  refine .of_cons rfl (fun _ => rfl) (fun _ => rfl) fun c cs _ => ?_
  rw [scanWord, scanWord, Text.takeWhile_withReturns hn hr, Text.dropWhile_withReturns hn hr]
  split <;> rfl

theorem blind_scanSymbol : Blind scanSymbol := by
  intro cs
  unfold scanSymbol
  rw [List.map_findSome?]
  congr 1
  funext s
  rw [Text.dropPrefix?_withReturns (by cases s <;> decide) (by cases s <;> decide)]
  simp only [Option.map_map, Function.comp_apply]
  rfl

theorem blind_scanDelimiter : Blind scanDelimiter := by
  refine .of_cons rfl (fun _ => rfl) (fun _ => rfl) fun c cs _ => ?_
  rw [scanDelimiter, scanDelimiter, Option.map_map]
  rfl

theorem scanQuoted_withReturns (cs : List Char) :
    (scanQuoted (withReturns cs)).map (·.2) = (scanQuoted cs).map fun r => withReturns r.2 := by
  fun_induction scanQuoted cs with
  | case1 => rfl
  | case2 cs => rfl
  | case3 => rfl
  | case4 c cs ih =>
    by_cases hc : c = '\n'
    · subst hc
      simpa [scanQuoted, Function.comp_def] using ih
    · simpa [scanQuoted, hc, Function.comp_def] using ih
  | case5 c cs hq hb hb' ih =>
    have hslash : c ≠ '\\' := ne_backslash hb hb'
    by_cases hc : c = '\n'
    · subst hc
      simpa [scanQuoted, Function.comp_def] using ih
    · simpa [scanQuoted, hc, hq, hslash, Function.comp_def] using ih

theorem scanClose_withReturns (cs : List Char) :
    scanClose (withReturns cs) =
      (scanClose cs).map fun r => (withReturns r.1, withReturns r.2) := by
  have hstep : ∀ {c : Char} {cs : List Char}, Text.dropPrefix? ['*', '/'] (c :: cs) = none →
      scanClose (c :: cs) = (scanClose cs).map fun r => (c :: r.1, r.2) := by
    intro c cs h
    rw [scanClose, h]
  induction cs with
  | nil => rfl
  | cons c cs ih =>
    by_cases hc : c = '\n'
    · subst hc
      rw [Text.withReturns_newline, hstep rfl, hstep rfl, hstep rfl, ih]
      cases scanClose cs <;> rfl
    · have hd : Text.dropPrefix? ['*', '/'] (withReturns (c :: cs)) = _ :=
        Text.dropPrefix?_withReturns (by decide) (by decide) (c :: cs)
      rw [Text.withReturns_cons hc] at hd ⊢
      rw [scanClose, scanClose, hd]
      cases Text.dropPrefix? ['*', '/'] (c :: cs) with
      | none => simp [ih, hc, Function.comp_def]
      | some rest => rfl

theorem scanLine_withReturns {cs : List Char} (hr : '\r' ∉ cs) :
    scanLine (withReturns cs) = (scanLine cs).map fun r => (r.1, withReturns r.2) := by
  have hstop := (Decimal.span_spec (!isLineEnd ·) cs).2.2
  have hmem : ∀ c ∈ cs.dropWhile (!isLineEnd ·), c ∈ cs :=
    fun c hc => (List.dropWhile_suffix _).subset hc
  simp only [scanLine, Text.takeWhile_withReturns (p := (!isLineEnd ·)) rfl rfl,
    Text.dropWhile_withReturns (p := (!isLineEnd ·)) rfl rfl]
  cases hd : cs.dropWhile (!isLineEnd ·) with
  | nil => rfl
  | cons c rest =>
    rw [hd] at hstop hmem
    have hc : c = '\n' := by
      have hend : isLineEnd c := by simpa using hstop
      have hne : c ≠ '\r' := by
        rintro rfl
        exact hr (hmem _ (.head _))
      simpa [isLineEnd, hne] using hend
    subst hc
    rfl

/-- Tokens read from a piece of a text with and without returns: both trivia, or the same token,
unless the piece is a string that goes on over a line end. -/
def Mate (piece : List Char) (t t' : Token) : Prop :=
  (t.isTrivia ∧ t'.isTrivia) ∨ ((t.isString → '\n' ∉ piece) → t' = t)

inductive Alongside (cs : List Char) :
    Option (Token × List Char) → Option (Token × List Char) → Prop
  | none : Alongside cs none none
  | piece {rest : List Char} {t t' : Token}
      (h : ∀ piece, cs = piece ++ rest → Mate piece t t') :
      Alongside cs (some (t, rest)) (some (t', withReturns rest))
  | line {rest : List Char} {t t' : Token} (ht : t.isTrivia) (ht' : t'.isTrivia) :
      Alongside cs (some (t, '\n' :: rest)) (some (t', '\n' :: withReturns rest))

variable {cs : List Char} {a a' b b' : Option (Token × List Char)}

theorem Alongside.or (ha : Alongside cs a a') (hb : Alongside cs b b') :
    Alongside cs (a <|> b) (a' <|> b') := by
  cases ha with
  | none => exact hb
  | piece h => exact .piece h
  | line ht ht' => exact .line ht ht'

theorem Alongside.of_blind {read : List Char → Option (Token × List Char)} (h : Blind read)
    (cs : List Char) : Alongside cs (read cs) (read (withReturns cs)) := by
  rw [h cs]
  cases read cs with
  | none => exact .none
  | some r => exact .piece fun _ _ => .inr fun _ => rfl

theorem scanBlanks_append {bs rest : List Char} (hne : bs ≠ []) (hb : ∀ c ∈ bs, isLineBlank c)
    (hs : Stops isLineBlank rest) :
    scanBlanks (bs ++ rest) = some (.blanks (String.ofList bs), rest) := by
  obtain ⟨ht, hd⟩ := span_append hb hs
  rw [scanBlanks, ht, hd]
  split
  · contradiction
  · rfl

theorem scanBlanks_of_stops (hs : Stops isLineBlank cs) : scanBlanks cs = none := by
  have ht : ([] ++ cs).takeWhile isLineBlank = [] := (span_append (by simp) hs).1
  rw [List.nil_append] at ht
  rw [scanBlanks, ht]

theorem stops_withReturns {p : Char → Bool} (hs : Stops p cs) (hn : cs.head? ≠ some '\n') :
    Stops p (withReturns cs) := by
  cases cs with
  | nil => exact hs
  | cons c cs =>
    rw [Text.withReturns_cons fun h => hn (congrArg some h)]
    simpa using hs

theorem alongside_scanBlanks (hn : cs.head? ≠ some '\n') :
    Alongside cs (scanBlanks cs) (scanBlanks (withReturns cs)) := by
  obtain ⟨he, hb, hs⟩ := span_spec isLineBlank cs
  generalize cs.takeWhile isLineBlank = bs at he hb
  generalize cs.dropWhile isLineBlank = rest at he hs
  subst he
  by_cases hbs : bs = []
  · subst hbs
    rw [List.nil_append] at hn ⊢
    rw [scanBlanks_of_stops hs, scanBlanks_of_stops (stops_withReturns hs hn)]
    exact .none
  have hbn : '\n' ∉ bs := fun h => absurd (hb _ h) (by decide)
  rw [Text.withReturns_append, Text.withReturns_eq_self hbn, scanBlanks_append hbs hb hs]
  by_cases hline : rest.head? = some '\n'
  · obtain ⟨rest, rfl⟩ := List.head?_eq_some_iff.1 hline
    have hbr : ∀ c ∈ bs ++ ['\r'], isLineBlank c := by
      simpa [or_imp, forall_and, isLineBlank] using hb
    rw [Text.withReturns_newline, List.append_cons bs '\r',
      scanBlanks_append (by simp) hbr (stops_cons.2 rfl)]
    exact .line rfl rfl
  · rw [scanBlanks_append hbs hb (stops_withReturns hs hline)]
    exact .piece fun _ _ => .inl ⟨rfl, rfl⟩

theorem alongside_scanNewline (hr : '\r' ∉ cs) (hn : cs.head? ≠ some '\n') :
    Alongside cs (scanNewline cs) (scanNewline (withReturns cs)) := by
  cases cs with
  | nil => exact .none
  | cons c cs =>
    have hc : c ≠ '\n' := fun h => hn (congrArg some h)
    have hcr : c ≠ '\r' := fun h => hr (h ▸ .head _)
    rw [Text.withReturns_cons hc, scanNewline_of_ne hcr hc, scanNewline_of_ne hcr hc]
    exact .none

theorem alongside_scanComment (hr : '\r' ∉ cs) :
    Alongside cs (scanComment cs) (scanComment (withReturns cs)) := by
  fun_cases scanComment cs with
  | case1 cs =>
    have hcs : '\r' ∉ cs := fun h => hr (.tail _ (.tail _ h))
    simp only [Text.withReturns_cons (c := '/') (by decide), scanComment, scanLine_withReturns hcs]
    cases scanLine cs with
    | none => exact .none
    | some r => exact .piece fun _ _ => .inl ⟨rfl, rfl⟩
  | case2 cs =>
    simp only [Text.withReturns_cons (c := '/') (by decide),
      Text.withReturns_cons (c := '*') (by decide), scanComment, scanClose_withReturns]
    cases scanClose cs with
    | none => exact .none
    | some r => exact .piece fun _ _ => .inl ⟨rfl, rfl⟩
  | case3 cs hline hblock =>
    have hslash : ∀ {cs tail : List Char} {c : Char}, c ≠ '\r' → withReturns cs = '/' :: c :: tail →
        ∃ tail', cs = '/' :: c :: tail' := by
      intro cs tail c hc h
      obtain ⟨cs, rfl, hcs⟩ := Text.eq_cons_of_withReturns (by decide) h
      obtain ⟨cs, rfl, -⟩ := Text.eq_cons_of_withReturns hc hcs.symm
      exact ⟨cs, rfl⟩
    rw [scanComment.eq_3 (withReturns cs)]
    · exact .none
    · intro tail h
      obtain ⟨cs, rfl⟩ := hslash (by decide) h
      exact hline cs rfl
    · intro tail h
      obtain ⟨cs, rfl⟩ := hslash (by decide) h
      exact hblock cs rfl

theorem alongside_scanString (cs : List Char) :
    Alongside cs (scanString cs) (scanString (withReturns cs)) := by
  fun_cases scanString cs with
  | case1 cs =>
    have hrest := scanQuoted_withReturns cs
    rw [Text.withReturns_cons (by decide), scanString]
    cases hs : scanQuoted cs with
    | none =>
      rw [hs, Option.map_none, Option.map_eq_none_iff] at hrest
      rw [hrest]
      exact .none
    | some r =>
      obtain ⟨s, rest⟩ := r
      rw [hs, Option.map_some, Option.map_eq_some_iff] at hrest
      obtain ⟨⟨s', rest'⟩, hs', rfl⟩ := hrest
      rw [hs']
      refine .piece fun piece hpiece => .inr fun hn => ?_
      -- the text between the quotes has no line end, so it is the same
      obtain ⟨w, hw, rfl⟩ := scanQuoted_eq_some_iff.1 hs
      obtain rfl : '"' :: w ++ ['"'] = piece :=
        List.append_cancel_right ((List.append_cons _ _ _).symm.trans hpiece)
      have hwn : '\n' ∉ w := fun h => hn rfl (by simp [h])
      rw [Text.withReturns_append, Text.withReturns_eq_self hwn, Text.withReturns_cons (by decide),
        scanQuoted_append hw] at hs'
      cases hs'
      rfl
  | case2 cs hq =>
    rw [scanString.eq_2 (withReturns cs)]
    · exact .none
    · intro tail h
      obtain ⟨cs, rfl, -⟩ := Text.eq_cons_of_withReturns (by decide) h
      exact hq cs rfl

theorem alongside_scan (hr : '\r' ∉ cs) (hn : cs.head? ≠ some '\n') :
    Alongside cs (scan cs) (scan (withReturns cs)) :=
  (alongside_scanBlanks hn).or <| (alongside_scanNewline hr hn).or <| (alongside_scanComment hr).or <|
    (alongside_scanString cs).or <| (Alongside.of_blind blind_scanFloat cs).or <|
    (Alongside.of_blind blind_scanInteger cs).or <| (Alongside.of_blind blind_scanWord cs).or <|
    (Alongside.of_blind blind_scanSymbol cs).or (Alongside.of_blind blind_scanDelimiter cs)

end Token

end PrimScript
