import PrimScript.Proofs.Decimal.Numeral
import PrimScript.Proofs.Token.Kinds
import PrimScript.Proofs.Token.Tiling

/-! Where comments begin.  An opener that the comment reader refuses is read all the same: its
slash is a division, and what follows is code.  Every other opener in code begins a comment. -/

namespace PrimScript

namespace Token

open Decimal (span_iff span_spec Stops stops_cons isDigit)

variable {c : Char} {cs rest : List Char} {t : Token}

/-- Openers that no comment begins with: of a line with a carriage return in it that no line feed
follows, and of a block that is not closed. -/
inductive Refused : List Char → Prop
  | line {content rest : List Char} (hc : ∀ c ∈ content, isLineEnd c = false)
      (hr : rest.head? ≠ some '\n') : Refused ('/' :: '/' :: (content ++ '\r' :: rest))
  | block {rest : List Char} (h : ¬ ['*', '/'] <:+: rest) : Refused ('/' :: '*' :: rest)

theorem Refused.exists_cons (h : Refused cs) :
    ∃ c tail, cs = '/' :: c :: tail ∧ (c = '/' ∨ c = '*') := by
  cases h with
  | line => exact ⟨'/', _, rfl, .inl rfl⟩
  | block => exact ⟨'*', _, rfl, .inr rfl⟩

theorem scanLine_eq_none_iff :
    scanLine cs = none ↔ ∃ content rest, cs = content ++ '\r' :: rest ∧
      (∀ c ∈ content, isLineEnd c = false) ∧ rest.head? ≠ some '\n' := by
  constructor
  · intro h
    obtain ⟨he, hc, -⟩ := span_spec (!isLineEnd ·) cs
    unfold scanLine at h
    dsimp only at h
    split at h
    · cases h
    · next tail hne heq =>
      refine ⟨_, tail, heq ▸ he, fun c hmem => by simpa using hc c hmem, ?_⟩
      intro hl
      obtain ⟨rest, rfl⟩ := List.head?_eq_some_iff.1 hl
      exact hne rest rfl
    · cases h
  · rintro ⟨content, rest, he, hc, hr⟩
    have hstop : Stops (!isLineEnd ·) ('\r' :: rest) := stops_cons.2 rfl
    obtain ⟨-, hw⟩ := span_iff.2 ⟨he, by simpa using hc, hstop⟩
    unfold scanLine
    rw [hw]
    cases rest with
    | nil => rfl
    | cons c rest =>
      dsimp only
      split
      · next heq =>
        cases heq
        exact absurd rfl hr
      · rfl
      · next hne => exact absurd rfl (hne (c :: rest))

theorem scanClose_eq_none_iff : scanClose cs = none ↔ ¬ ['*', '/'] <:+: cs := by
  induction cs with
  | nil => simp [scanClose]
  | cons c cs ih =>
    rw [scanClose, List.infix_cons_iff, not_or, ← ih]
    cases hd : Text.dropPrefix? ['*', '/'] (c :: cs) with
    | none =>
      have hp : ¬ ['*', '/'] <+: c :: cs := by
        rintro ⟨rest, he⟩
        rw [← he, Text.dropPrefix?_append] at hd
        cases hd
      simp [hp]
    | some rest =>
      have hp : ['*', '/'] <+: c :: cs := ⟨rest, (Text.eq_append_of_dropPrefix? hd).symm⟩
      simp [hp]

theorem scanComment_eq_none_iff (hc : c = '/' ∨ c = '*') :
    scanComment ('/' :: c :: cs) = none ↔ Refused ('/' :: c :: cs) := by
  rcases hc with rfl | rfl
  · rw [scanComment, Option.map_eq_none_iff, scanLine_eq_none_iff]
    constructor
    · rintro ⟨content, rest, rfl, hc, hr⟩
      exact .line hc hr
    · intro h
      cases h with
      | line hc hr => exact ⟨_, _, rfl, hc, hr⟩
  · rw [scanComment, Option.map_eq_none_iff, scanClose_eq_none_iff]
    constructor
    · exact .block
    · intro h
      cases h with
      | block h => exact h

theorem scan_of_refused (hc : c = '/' ∨ c = '*') (h : Refused ('/' :: c :: cs)) :
    scan ('/' :: c :: cs) = some (.symbol .divide, c :: cs) := by
  rw [scan_sign (.inl rfl), (scanComment_eq_none_iff hc).2 h]
  rcases hc with rfl | rfl <;> rfl

theorem isComment_of_not_refused (hc : c = '/' ∨ c = '*') (h : ¬ Refused ('/' :: c :: cs))
    (ht : scan ('/' :: c :: cs) = some (t, rest)) : t.isComment := by
  rw [← scanComment_eq_none_iff hc] at h
  obtain ⟨r, hr⟩ := Option.ne_none_iff_exists'.1 h
  rw [scan_sign (.inl rfl), hr, Option.some_or] at ht
  exact isComment_of_scanComment (hr.trans ht)

theorem comment_or_divide (hc : c = '/' ∨ c = '*')
    (ht : scan ('/' :: c :: cs) = some (t, rest)) :
    t.isComment ∧ ¬ Refused ('/' :: c :: cs) ∨
      t = .symbol .divide ∧ Refused ('/' :: c :: cs) := by
  by_cases h : Refused ('/' :: c :: cs)
  · rw [scan_of_refused hc h] at ht
    exact .inr ⟨(Prod.mk.inj (Option.some.inj ht)).1.symm, h⟩
  · exact .inl ⟨isComment_of_not_refused hc h ht, h⟩

/-- What was read from `cs` on, up to `rest`, has no slash behind its first character. -/
def Slashless (cs rest : List Char) : Prop := ∃ c w, cs = c :: (w ++ rest) ∧ '/' ∉ w

theorem Slashless.of_not_mem {w : List Char} (hne : w ≠ []) (hw : '/' ∉ w) :
    Slashless (w ++ rest) rest := by
  obtain ⟨c, tail, rfl⟩ := List.exists_cons_of_ne_nil hne
  exact ⟨c, tail, rfl, fun h => hw (.tail c h)⟩

theorem Slashless.takeWhile {p : Char → Bool} (hp : p '/' = false) (hne : cs.takeWhile p ≠ []) :
    Slashless cs (cs.dropWhile p) := by
  obtain ⟨he, hw, -⟩ := span_spec p cs
  have h : Slashless (cs.takeWhile p ++ cs.dropWhile p) (cs.dropWhile p) :=
    .of_not_mem hne fun h => by simpa [hp] using hw '/' h
  rwa [← he] at h

theorem slashless_of_scanBlanks (h : scanBlanks cs = some (t, rest)) : Slashless cs rest := by
  unfold scanBlanks at h
  split at h
  · cases h
  · next hne =>
    cases h
    exact .takeWhile (by decide) fun h0 => hne h0

theorem slashless_of_scanNewline (h : scanNewline cs = some (t, rest)) : Slashless cs rest := by
  unfold scanNewline at h
  split at h
  · cases h
    exact ⟨'\r', ['\n'], rfl, by simp⟩
  · cases h
    exact ⟨'\n', [], rfl, by simp⟩
  · cases h

theorem slash_not_mem_of_isDigit {ds : List Char} (h : ∀ c ∈ ds, isDigit c) : '/' ∉ ds :=
  fun hs => absurd (h '/' hs) (by decide)

theorem slashless_of_scanFloat (h : scanFloat cs = some (t, rest)) : Slashless cs rest := by
  obtain ⟨n, tail, hn, -, -, rfl⟩ := scanFloat_eq_some_iff.1 h
  obtain ⟨v, hv, rfl⟩ := Decimal.of_scanNumeral hn
  obtain ⟨c, w, rfl, -⟩ := hv.exists_cons
  have hw : '/' ∉ w := fun h => absurd (hv.isNumeralChar '/' (.tail c h)) (by decide)
  rcases exists_append_afterSuffix tail with he | ⟨f, hf, he⟩
  · exact ⟨c, w, by rw [← he]; rfl, hw⟩
  · refine ⟨c, w ++ [f], by rw [List.append_assoc, List.singleton_append, ← he]; rfl, ?_⟩
    rcases hf with rfl | rfl <;> simp [hw]

theorem slashless_of_scanInteger (h : scanInteger cs = some (t, rest)) : Slashless cs rest := by
  rw [scanInteger_eq] at h
  obtain ⟨⟨n, tail⟩, hn, he⟩ := Option.map_eq_some_iff.1 h
  cases he
  rw [Decimal.scanInteger, Option.or_eq_some_iff, Decimal.scanHexadecimal_eq_some_iff,
    Decimal.scanDecimal_eq_some_iff] at hn
  rcases hn with ⟨x, hs, hx, -, hh, -, rfl, -⟩ | ⟨-, ds, hd, -, rfl, -⟩
  · have hdigits : '/' ∉ hs := fun hs => absurd (hh '/' hs) (by decide)
    exact ⟨'0', x :: hs, rfl, by rcases hx with rfl | rfl <;> simp [hdigits]⟩
  · exact .of_not_mem hd.1 (slash_not_mem_of_isDigit hd.2)

theorem slashless_of_scanWord (h : scanWord cs = some (t, rest)) : Slashless cs rest := by
  unfold scanWord at h
  split at h
  · cases h
  · next c tail =>
    split at h
    · cases h
      obtain ⟨he, hw, -⟩ := span_spec isWordChar tail
      exact ⟨c, _, congrArg (c :: ·) he, fun h => absurd (hw '/' h) (by decide)⟩
    · cases h

theorem append_of_scanSymbol {s : Symbol} (h : scanSymbol cs = some (.symbol s, rest)) :
    cs = s.chars ++ rest := by
  obtain ⟨s', -, hs⟩ := List.exists_of_findSome?_eq_some h
  obtain ⟨_, hd, he⟩ := Option.map_eq_some_iff.1 hs
  cases he
  exact Text.eq_append_of_dropPrefix? hd

theorem slashless_of_scanSymbol {s : Symbol} (h : scanSymbol cs = some (.symbol s, rest)) :
    Slashless cs rest := by
  rw [append_of_scanSymbol h]
  cases s <;> exact ⟨_, _, rfl, by decide⟩

theorem slashless_of_scanDelimiter (h : scanDelimiter cs = some (t, rest)) : Slashless cs rest := by
  unfold scanDelimiter at h
  split at h
  · cases h
  · next c tail =>
    obtain ⟨d, -, he⟩ := Option.map_eq_some_iff.1 h
    cases he
    exact ⟨c, [], rfl, by simp⟩

theorem slashless_of_scan (h : scan cs = some (t, rest)) :
    t.isComment ∨ t.isString ∨ Slashless cs rest := by
  cases readBy_of_scan h with
  | blanks hr => exact .inr (.inr (slashless_of_scanBlanks hr))
  | newline hr => exact .inr (.inr (slashless_of_scanNewline hr))
  | comment ht => exact .inl ht
  | string => exact .inr (.inl rfl)
  | float hr => exact .inr (.inr (slashless_of_scanFloat hr))
  | integer hr => exact .inr (.inr (slashless_of_scanInteger hr))
  | word ht hr => exact .inr (.inr (slashless_of_scanWord hr))
  | symbol hr => exact .inr (.inr (slashless_of_scanSymbol hr))
  | delimiter hr => exact .inr (.inr (slashless_of_scanDelimiter hr))

theorem comment_or_string {between inside : List Char}
    (h : scan (c :: (between ++ '/' :: inside ++ rest)) = some (t, rest)) :
    t.isComment ∨ t.isString := by
  rcases slashless_of_scan h with h | h | ⟨d, w, he, hw⟩
  · exact .inl h
  · exact .inr h
  · have hw' : between ++ '/' :: inside = w := List.append_cancel_right (List.cons.inj he).2
    exact absurd (by simp [← hw']) hw

theorem append_of_scan_symbol {s : Symbol} (h : scan cs = some (.symbol s, rest)) :
    cs = s.chars ++ rest := by
  cases readBy_of_scan h with
  | comment ht => cases ht
  | word ht => cases ht
  | symbol hr => exact append_of_scanSymbol hr

end Token

namespace Lexeme

open Position (after_append after_past past)
open Token (Refused)

variable {c : Char} {cs tail : List Char} {p q : Position} {l l' : Lexeme} {as bs ls : List Lexeme}

def ahead (cs : List Char) (l : Lexeme) : List Char :=
  cs.drop (Text.takeBytes l.start.offset cs).length

theorem ahead_past (before mid : List Char) (t : Token) (stop : Nat) :
    ahead (before ++ mid) ⟨t, past before, stop⟩ = mid := by
  simp only [ahead, past, Text.takeBytes_append, List.drop_left]

theorem Reads.split (h : Reads p cs (as ++ bs) q tail) :
    ∃ taken mid, cs = taken ++ mid ∧ Reads (p.after taken) mid bs q tail := by
  induction as generalizing p cs with
  | nil => exact ⟨[], cs, rfl, h⟩
  | cons a as ih =>
    cases h with
    | @turn _ _ piece rest _ _ _ ht hr =>
      obtain ⟨taken, mid, rfl, hmid⟩ := ih hr
      exact ⟨piece ++ taken, mid, by simp, after_append p piece taken ▸ hmid⟩

theorem Reads.divide_iff (h : Reads .start cs (as ++ l :: l' :: bs) q []) :
    (l.token = .symbol .divide ∧
        ∃ c piece, slice? cs l' = some (c :: piece) ∧ (c = '/' ∨ c = '*')) ↔
      Refused (ahead cs l) := by
  obtain ⟨taken, mid, rfl, hmid⟩ := h.split
  rw [show Position.start = past [] from rfl, after_past, List.nil_append] at hmid
  cases hmid with
  | @turn _ _ piece rest _ t _ ht hr =>
    cases hr with
    | @turn _ _ piece' rest' _ t' _ ht' hr' =>
      have hslice : slice? (taken ++ (piece ++ (piece' ++ rest')))
          ⟨t', (past taken).after piece, (((past taken).after piece).after piece').offset⟩ =
            some piece' := by
        rw [after_past, after_past, ← List.append_assoc taken piece]
        exact Text.slice?_append (taken ++ piece) piece' rest'
      rw [ahead_past, hslice]
      dsimp only
      constructor
      · rintro ⟨rfl, c, w, he, hc⟩
        cases he
        have hpiece := Token.append_of_scan_symbol ht
        rw [List.append_cancel_right hpiece] at ht ⊢
        by_contra hn
        exact absurd (Token.isComment_of_not_refused hc hn ht) Bool.false_ne_true
      · intro href
        obtain ⟨c, tail, he, hc⟩ := href.exists_cons
        rw [he] at ht href
        rw [Token.scan_of_refused hc href] at ht
        obtain ⟨rfl, hrest⟩ := Prod.mk.inj (Option.some.inj ht)
        obtain ⟨d, w, rfl⟩ := List.exists_cons_of_ne_nil (Token.ne_nil_of_scan ht')
        obtain ⟨rfl, -⟩ := List.cons.inj hrest
        exact ⟨rfl, c, w, rfl, hc⟩

theorem append_cases {α : Type} {as as' bs bs' : List α} (h : as ++ bs = as' ++ bs') :
    (∃ later, as' = as ++ later) ∨ ∃ a inside, as = as' ++ a :: inside := by
  rcases List.append_eq_append_iff.1 h with ⟨later, he, -⟩ | ⟨inside, he, -⟩
  · exact .inl ⟨later, he⟩
  · cases inside with
    | nil => exact .inl ⟨[], by simp [he]⟩
    | cons a inside => exact .inr ⟨a, inside, he⟩

theorem Reads.opener {mid : List Char} (h : Reads p mid ls q []) (before : List Char)
    (hp : p = past before) (hc : c = '/' ∨ c = '*') {between : List Char}
    (hm : mid = between ++ '/' :: c :: tail) :
    ∃ l ∈ ls,
      (l.start = past (before ++ between) ∧
        (l.token.isComment ∧ ¬ Refused ('/' :: c :: tail) ∨
          l.token = .symbol .divide ∧ Refused ('/' :: c :: tail))) ∨
      (l.start.offset < Text.byteCount (before ++ between) ∧
        Text.byteCount (before ++ between) < l.stop ∧ (l.token.isComment ∨ l.token.isString)) := by
  generalize hnil : ([] : List Char) = last at h
  induction h generalizing before between with
  | done p cs =>
    subst hnil
    simp at hm
  | @turn p q piece rest last t ls ht next ih =>
    obtain ⟨later, rfl⟩ | ⟨d, inside, rfl⟩ := append_cases hm
    · -- the opener is behind this piece
      rw [List.append_assoc, List.append_right_inj] at hm
      obtain ⟨l, hl, h⟩ := ih (before ++ piece) (by rw [hp, after_past]) hm hnil
      rw [List.append_assoc] at h
      exact ⟨l, .tail _ hl, h⟩
    · rw [List.append_assoc, List.append_right_inj, List.cons_append, List.cons.injEq] at hm
      obtain ⟨rfl, hrest⟩ := hm
      refine ⟨_, .head _, ?_⟩
      cases between with
      | nil =>
        rw [List.nil_append, List.cons_append, hrest] at ht
        exact .inl ⟨by rw [hp, List.append_nil], Token.comment_or_divide hc ht⟩
      | cons b between =>
        have hstart : 0 < Text.byteCount (b :: between) := Text.byteCount_pos (by simp)
        have hstop : 0 < Text.byteCount ('/' :: inside) := Text.byteCount_pos (by simp)
        refine .inr ⟨?_, ?_, Token.comment_or_string ht⟩
        · rw [hp, Text.byteCount_append]
          exact Nat.lt_add_of_pos_right hstart
        · rw [hp, after_past, ← List.append_assoc]
          change _ < Text.byteCount (before ++ b :: between ++ '/' :: inside)
          rw [Text.byteCount_append _ ('/' :: inside)]
          exact Nat.lt_add_of_pos_right hstop

/-- What becomes of the comment openers of a text that is read.  A division stands right before a
token that begins with a slash or a star just where an opener is refused; and every opener is the
beginning of a comment, or is refused, or is inside a comment or a string. -/
theorem openers (h : ofChars cs = .ok ls) :
    (∀ l l', [l, l'] <:+: ls →
      ((l.token = .symbol .divide ∧
          ∃ c piece, slice? cs l' = some (c :: piece) ∧ (c = '/' ∨ c = '*')) ↔
        Refused (ahead cs l))) ∧
    ∀ before c tail, cs = before ++ '/' :: c :: tail → c = '/' ∨ c = '*' →
      ∃ l ∈ ls,
        (l.start = past before ∧
          (l.token.isComment ∧ ¬ Refused ('/' :: c :: tail) ∨
            l.token = .symbol .divide ∧ Refused ('/' :: c :: tail))) ∨
        (l.start.offset < Text.byteCount before ∧ Text.byteCount before < l.stop ∧
          (l.token.isComment ∨ l.token.isString)) := by
  have hr := reads_scanFrom .start cs.length cs (Nat.le_refl _)
  rw [ofChars] at h
  rw [h] at hr
  refine ⟨?_, fun before c tail hcs hc => hr.opener [] rfl hc hcs⟩
  rintro l l' ⟨as, bs, hls⟩
  rw [List.append_assoc, List.cons_append, List.singleton_append] at hls
  rw [← hls] at hr
  exact hr.divide_iff

def stray : List Char := ['/', '/', '\r', '/', '*', '*', '/']

def strayLexemes : List Lexeme :=
  [⟨.symbol .divide, ⟨0, 1, 1⟩, 1⟩, ⟨.symbol .divide, ⟨1, 1, 2⟩, 2⟩, ⟨.blanks "\r", ⟨2, 1, 3⟩, 3⟩,
   ⟨.blockComment "", ⟨3, 1, 4⟩, 7⟩]

theorem openers_stray :
    ofChars stray = .ok strayLexemes ∧ Refused stray ∧ ¬ Refused ['/', '*', '*', '/'] := by
  have h : ofChars stray = .ok strayLexemes := rfl
  refine ⟨h, ((openers h).1 _ _ ⟨[], _, rfl⟩).1 ⟨rfl, '/', [], rfl, .inl rfl⟩, ?_⟩
  have hb : Text.byteCount ['/', '/', '\r'] = 3 := rfl
  obtain ⟨l, hl, hopener⟩ := (openers h).2 ['/', '/', '\r'] '*' ['*', '/'] rfl (.inr rfl)
  rw [hb] at hopener
  simp only [strayLexemes, List.mem_cons, List.not_mem_nil, or_false] at hl
  rcases hl with rfl | rfl | rfl | rfl <;> simp_all [past, Token.isComment, Token.isString]

def unclosed : List Char := ['/', '*', ' ', 'x']

def unclosedLexemes : List Lexeme :=
  [⟨.symbol .divide, ⟨0, 1, 1⟩, 1⟩, ⟨.symbol .times, ⟨1, 1, 2⟩, 2⟩, ⟨.blanks " ", ⟨2, 1, 3⟩, 3⟩,
   ⟨.ident "x", ⟨3, 1, 4⟩, 4⟩]

theorem divide_before_star :
    ¬ ∀ cs ls, ofChars cs = .ok ls → ∀ l l', [l, l'] <:+: ls → l.token = .symbol .divide →
      ∀ c piece, slice? cs l' = some (c :: piece) → c ≠ '/' ∧ c ≠ '*' :=
  fun h => (h unclosed unclosedLexemes rfl _ _ ⟨[], _, rfl⟩ rfl '*' [] rfl).2 rfl

end Lexeme

end PrimScript
