import PrimScript.Proofs.Token.Tiling

/-! String literals.  A text is written between quotes character by character, and some characters
can be written in more than one way.  Whichever is chosen, and whatever comes after the closing
quote, the literal is read as that text. -/

namespace PrimScript

namespace Token

variable {c : Char} {s v w rest : List Char} {t : Token}

/-- The ways to write a character between quotes.  Quotes and backslashes need a backslash before
them, others may have one; line breaks and tabs can also be written with a letter. -/
inductive CharText : Char → List Char → Prop
  | raw {c : Char} (hq : c ≠ '"') (hb : c ≠ '\\') : CharText c [c]
  | escaped {c : Char} (hn : c ≠ 'n') (ht : c ≠ 't') : CharText c ['\\', c]
  | newline : CharText '\n' ['\\', 'n']
  | tab : CharText '\t' ['\\', 't']

inductive QuotedText : List Char → List Char → Prop
  | nil : QuotedText [] []
  | cons {c : Char} {s v w : List Char} (hc : CharText c v) (hs : QuotedText s w) :
      QuotedText (c :: s) (v ++ w)

theorem exists_charText (c : Char) : ∃ v, CharText c v := by
  by_cases hq : c = '"'
  · subst hq
    exact ⟨_, .escaped (by decide) (by decide)⟩
  · by_cases hb : c = '\\'
    · subst hb
      exact ⟨_, .escaped (by decide) (by decide)⟩
    · exact ⟨_, .raw hq hb⟩

theorem exists_quotedText (s : List Char) : ∃ w, QuotedText s w := by
  induction s with
  | nil => exact ⟨[], .nil⟩
  | cons c s ih =>
    obtain ⟨v, hv⟩ := exists_charText c
    obtain ⟨w, hw⟩ := ih
    exact ⟨v ++ w, .cons hv hw⟩

theorem scanQuoted_char (h : CharText c v) (cs : List Char) :
    scanQuoted (v ++ cs) = (scanQuoted cs).map fun r => (c :: r.1, r.2) := by
  cases h with
  | raw hq hb => simp [scanQuoted, hb]
  | escaped hn ht => simp [scanQuoted, escaped]
  | newline => rfl
  | tab => rfl

theorem scanQuoted_append (h : QuotedText s w) (rest : List Char) :
    scanQuoted (w ++ '"' :: rest) = some (s, rest) := by
  induction h with
  | nil => rfl
  | cons hc _ ih => rw [List.append_assoc, scanQuoted_char hc, ih, Option.map_some]

theorem charText_escaped (c : Char) : CharText (escaped c) ['\\', c] := by
  unfold escaped
  split
  · exact .newline
  · exact .tab
  · next hn ht => exact .escaped (fun h => hn h) (fun h => ht h)

theorem ne_backslash {cs : List Char} (hnil : c = '\\' → cs = [] → False)
    (hcons : ∀ d ds, c = '\\' → cs = d :: ds → False) : c ≠ '\\' := by
  intro hc
  cases cs with
  | nil => exact hnil hc rfl
  | cons d ds => exact hcons d ds hc rfl

/-- What is read between quotes are the texts written there. -/
theorem scanQuoted_eq_some_iff {cs : List Char} :
    scanQuoted cs = some (s, rest) ↔ ∃ w, QuotedText s w ∧ cs = w ++ '"' :: rest := by
  constructor
  · intro h
    fun_induction scanQuoted cs generalizing s with
    | case1 => cases h
    | case2 cs =>
      cases h
      exact ⟨[], .nil, rfl⟩
    | case3 => cases h
    | case4 c cs ih =>
      obtain ⟨⟨s, rest⟩, hs, he⟩ := Option.map_eq_some_iff.1 h
      cases he
      obtain ⟨w, hw, rfl⟩ := ih hs
      exact ⟨['\\', c] ++ w, .cons (charText_escaped c) hw, rfl⟩
    | case5 c cs hq hb hb' ih =>
      obtain ⟨⟨s, rest⟩, hs, he⟩ := Option.map_eq_some_iff.1 h
      cases he
      obtain ⟨w, hw, rfl⟩ := ih hs
      exact ⟨[c] ++ w, .cons (.raw hq (ne_backslash hb hb')) hw, rfl⟩
  · rintro ⟨w, hw, rfl⟩
    exact scanQuoted_append hw rest

def scanLiteral (cs : List Char) : Option (Token × List Char) :=
  scanString cs <|> scanFloat cs <|> scanInteger cs

theorem scan_eq (cs : List Char) :
    scan cs = (scanBlanks cs <|> scanNewline cs <|> scanComment cs <|> scanLiteral cs <|>
      scanWord cs <|> scanSymbol cs <|> scanDelimiter cs) := by
  simp only [scan, scanLiteral, Option.orElse_eq_orElse, Option.orElse_eq_or, Option.or_assoc]

theorem scan_of_scanLiteral {cs : List Char} (h : scanLiteral ('"' :: cs) = some (t, rest)) :
    scan ('"' :: cs) = some (t, rest) := by
  rw [scan_eq, h]
  simp [scanBlanks, isLineBlank, scanNewline, scanComment]

theorem scanLiteral_append (h : QuotedText s w) (rest : List Char) :
    scanLiteral ('"' :: (w ++ '"' :: rest)) = some (.string (String.ofList s), rest) := by
  simp [scanLiteral, scanString, scanQuoted_append h]

end Token

namespace Lexeme

open Token (QuotedText scanLiteral)

theorem Reads.first {p q : Position} {cs piece rest : List Char} {t : Token} {ls : List Lexeme}
    (h : Reads p cs ls q []) (ht : Token.scan cs = some (t, rest)) (hcs : cs = piece ++ rest) :
    ∃ others, ls = ⟨t, p, (p.after piece).offset⟩ :: others := by
  cases h with
  | done => cases ht
  | turn ht' _ =>
    rw [ht'] at ht
    cases ht
    obtain rfl := List.append_cancel_right hcs
    exact ⟨_, rfl⟩

/-- Every text can be written as a string literal: however it is quoted and whatever comes behind
it, what is read first is that text, up to the closing quote. -/
theorem strings_expressible (s : String) :
    (∃ w, QuotedText s.toList w) ∧
      ∀ w rest, QuotedText s.toList w →
        scanLiteral ('"' :: (w ++ '"' :: rest)) = some (.string s, rest) ∧
          ∀ ls, ofChars ('"' :: (w ++ '"' :: rest)) = .ok ls →
            ∃ others, ls = ⟨.string s, .start, Text.byteCount w + 2⟩ :: others := by
  refine ⟨Token.exists_quotedText _, fun w rest hw => ?_⟩
  have hs := Token.scanLiteral_append hw rest
  rw [String.ofList_toList] at hs
  refine ⟨hs, fun ls hls => ?_⟩
  have hr := reads_scanFrom .start _ ('"' :: (w ++ '"' :: rest)) (Nat.le_refl _)
  rw [ofChars] at hls
  rw [hls] at hr
  have hcs : '"' :: (w ++ '"' :: rest) = '"' :: (w ++ ['"']) ++ rest := by simp
  obtain ⟨others, rfl⟩ := hr.first (Token.scan_of_scanLiteral hs) hcs
  have hq : '"'.utf8Size = 1 := by decide
  have hbytes : Text.byteCount ('"' :: (w ++ ['"'])) = Text.byteCount w + 2 := by
    simp [hq]
    omega
  exact ⟨others, by rw [Position.offset_after, hbytes, Position.start, Nat.zero_add]⟩

def tricky : String := "\\n\n\"\n\\"

def trickyQuoted : List Char := ['\\', '\\', 'n', '\n', '\\', '"', '\\', 'n', '\\', '\\']

def trickyLexemes : List Lexeme :=
  [⟨.string tricky, .start, 12⟩, ⟨.symbol .plus, ⟨12, 2, 8⟩, 13⟩]

theorem strings_expressible_tricky :
    QuotedText tricky.toList trickyQuoted ∧
      scanLiteral ('"' :: (trickyQuoted ++ '"' :: ['\\', '"'])) =
        some (.string tricky, ['\\', '"']) ∧
      ofChars ('"' :: (trickyQuoted ++ '"' :: ['+'])) = .ok trickyLexemes ∧
      ∃ others, trickyLexemes = ⟨.string tricky, .start, 12⟩ :: others := by
  have h : QuotedText tricky.toList trickyQuoted :=
    .cons (.escaped (by decide) (by decide)) (.cons (.raw (by decide) (by decide))
      (.cons (.raw (by decide) (by decide)) (.cons (.escaped (by decide) (by decide))
        (.cons .newline (.cons (.escaped (by decide) (by decide)) .nil)))))
  have hls : ofChars ('"' :: (trickyQuoted ++ '"' :: ['+'])) = .ok trickyLexemes := rfl
  exact ⟨h, ((strings_expressible tricky).2 _ _ h).1, hls,
    ((strings_expressible tricky).2 _ _ h).2 _ hls⟩

end Lexeme

end PrimScript
