import PrimScript.Proofs.Json.Number

/-! Reading back the text of a JSON value.  Every value is read back whose integers have 64 bits and
whose floating point numbers are read back one by one. -/

namespace PrimScript.Json

open Decimal

theorem scanString_control {n : Nat} (hn : n < 32) (read rest : List Char) :
    scanString read
        ('\\' :: 'u' :: '0' :: '0' :: Nat.digitChar (n / 16) :: Nat.digitChar (n % 16) :: rest) =
      scanString (Char.ofNat n :: read) rest := by
  have digits : ∀ n : Fin 32,
      (['0', '0', Nat.digitChar (n / 16), Nat.digitChar (n % 16)].all isHexDigit = true ∧
        ofDigits 16 ['0', '0', Nat.digitChar (n / 16), Nat.digitChar (n % 16)] = n) := by decide
  obtain ⟨hex, value⟩ := digits ⟨n, hn⟩
  simp only at hex value
  rw [scanString]
  simp only [hex, value]
  rw [if_neg (by simp), if_neg (by omega), if_neg (by omega)]

theorem scanString_escapedChar (c : Char) (read rest : List Char) :
    scanString read (escapedChar c ++ rest) = scanString (c :: read) rest := by
  unfold escapedChar
  split
  iterate 7 simp [scanString, escaped?]
  next hquote hslash _ _ _ _ _ =>
    split
    · next h =>
      have back : Char.ofNat c.toNat = c := Char.ofNat_toNat c
      simpa [back] using scanString_control h read rest
    · next h =>
      simp only [List.cons_append, List.nil_append]
      rw [scanString]
      · rw [if_neg (by simp_all)]
      all_goals simp_all

theorem scanString_flatMap (s read rest : List Char) :
    scanString read (s.flatMap escapedChar ++ '"' :: rest) = some (read.reverse ++ s, rest) := by
  induction s generalizing read with
  | nil => simp [scanString]
  | cons c s ih =>
    simp only [List.flatMap_cons, List.append_assoc]
    rw [scanString_escapedChar, ih]
    simp

mutual

/-- Integers have 64 bits, and floating point numbers are read back from their text. -/
def Exact : Json → Prop
  | .int n => -9223372036854775808 ≤ n ∧ n < 18446744073709551616
  | .num x => readChars? (floatText x) = some (.num x)
  | .arr items => ExactItems items
  | .obj fields => ExactFields fields
  | _ => True

def ExactItems : List Json → Prop
  | [] => True
  | j :: js => Exact j ∧ ExactItems js

def ExactFields : List (String × Json) → Prop
  | [] => True
  | (_, j) :: fields => Exact j ∧ ExactFields fields

end

def ReadsTo (fuel : Nat) (cs : List Char) (j : Json) (tail : List Char) : Prop :=
  ∃ rest, scanValue fuel cs = some (j, rest) ∧ skipBlanks rest = skipBlanks tail

section
variable {cs tail : List Char} {c : Char} {fuel : Nat} {j : Json}

theorem skipBlanks_append (cs tail : List Char) :
    skipBlanks (cs ++ tail) =
      if skipBlanks cs = [] then skipBlanks tail else skipBlanks cs ++ tail := by
  unfold skipBlanks
  induction cs with
  | nil => simp
  | cons c cs ih =>
    simp only [List.cons_append, List.dropWhile_cons]
    split
    · exact ih
    · simp

theorem skipBlanks_sign (hc : c ∈ ['[', ']', '\x7b', '\x7d', ':', ',', '"']) (cs : List Char) :
    skipBlanks (c :: cs) = c :: cs := by
  have no_blank : ∀ c ∈ ['[', ']', '\x7b', '\x7d', ':', ',', '"'], isBlank c = false := by simp [isBlank]
  simp [skipBlanks, no_blank c hc]

theorem scanNumber_head {r : Json × List Char} (h : scanNumber cs = some r) :
    ∃ c rest, cs = c :: rest ∧ (isDigit c ∨ c = '-') := by
  cases cs with
  | nil => simp [scanNumber, scanUnsigned] at h
  | cons c cs =>
    refine ⟨c, cs, rfl, ?_⟩
    by_contra hc
    rw [not_or] at hc
    simp [scanNumber, hc, scanUnsigned] at h

theorem isBlank_number (hc : isDigit c ∨ c = '-') : isBlank c = false := by
  simp only [isBlank, Bool.or_eq_false_iff, decide_eq_false_iff_not]
  refine ⟨⟨⟨?_, ?_⟩, ?_⟩, ?_⟩ <;> rintro rfl <;> revert hc <;> decide

theorem scanValue_number (hc : isDigit c ∨ c = '-') :
    scanValue (fuel + 1) (c :: cs) = scanNumber (c :: cs) := by
  have no_blank : skipBlanks (c :: cs) = c :: cs := by simp [skipBlanks, isBlank_number hc]
  rw [scanValue, no_blank]
  split <;> first
    | rfl
    | next h =>
      obtain ⟨rfl, -⟩ := List.cons.inj h
      exact absurd hc (by decide)

theorem scanItems_ne_bracket {r : List Json × List Char} (h : scanItems fuel cs = some r)
    (rest : List Char) : skipBlanks cs ≠ ']' :: rest := by
  intro blank
  match fuel with
  | 0 => simp [scanItems] at h
  | 1 => simp [scanItems, scanValue] at h
  | fuel + 2 => simp [scanItems, scanValue, blank, scanNumber, scanUnsigned, isDigit] at h

theorem scanFields_ne_brace {r : List (String × Json) × List Char}
    (h : scanFields fuel cs = some r) (rest : List Char) : skipBlanks cs ≠ '\x7d' :: rest := by
  intro blank
  cases fuel with
  | zero => simp [scanFields] at h
  | succ fuel => simp [scanFields, blank] at h

theorem readsTo_num {x : Float} (h : readChars? cs = some (.num x)) (closed : Closed tail) :
    ReadsTo (fuel + 1) (cs ++ tail) (.num x) tail := by
  obtain ⟨rest, number, blank⟩ : ∃ rest, scanNumber (skipBlanks cs) = some (.num x, rest) ∧
      skipBlanks rest = [] := by
    unfold readChars? at h
    split at h
    · next j rest scanned =>
      simp only [Option.ite_none_right_eq_some, Option.some.injEq] at h
      obtain ⟨blank, rfl⟩ := h
      refine ⟨rest, ?_, blank⟩
      -- Every other way to read a value gives one of another kind.
      rw [scanValue] at scanned
      split at scanned <;> first | exact scanned | simp at scanned
      all_goals split at scanned <;> simp at scanned
    · simp at h
  obtain ⟨c, cs', head, hc⟩ := scanNumber_head number
  refine ⟨rest ++ tail, ?_, by rw [skipBlanks_append, if_pos blank]⟩
  have after : skipBlanks (cs ++ tail) = c :: (cs' ++ tail) := by
    rw [skipBlanks_append, if_neg (by simp [head]), head, List.cons_append]
  have skipped : scanValue (fuel + 1) (cs ++ tail) = scanValue (fuel + 1) (c :: (cs' ++ tail)) := by
    have twice : skipBlanks (c :: (cs' ++ tail)) = c :: (cs' ++ tail) := by
      simp [skipBlanks, isBlank_number hc]
    rw [scanValue, scanValue, after, twice]
  rw [skipped, scanValue_number hc, ← List.cons_append, ← head, scanNumber_append closed, number]
  rfl

theorem readsTo_int {n : Int} (low : -9223372036854775808 ≤ n)
    (high : n < 18446744073709551616) (closed : Closed tail) :
    ReadsTo (fuel + 1) (integerText n ++ tail) (.int n) tail := by
  have number := scanNumber_integerText low high
  obtain ⟨c, cs, head, hc⟩ := scanNumber_head number
  have appended := scanNumber_append closed (integerText n)
  rw [number, head] at appended
  rw [head]
  exact ⟨tail, (scanValue_number hc).trans appended, rfl⟩

theorem readsTo_str (s : String) :
    ReadsTo (fuel + 1) (stringText s ++ tail) (.str s) tail := by
  refine ⟨tail, ?_, rfl⟩
  simp [stringText, scanValue, skipBlanks, isBlank, scanString_flatMap]

end

mutual

theorem readsTo_chars : (j : Json) → Exact j → ∀ tail : List Char, Closed tail →
    ∀ fuel : Nat, 2 * (chars j).length + 1 ≤ fuel → ReadsTo fuel (chars j ++ tail) j tail
  | .null, _, tail, _, fuel + 1, _ => ⟨tail, rfl, rfl⟩
  | .bool true, _, tail, _, fuel + 1, _ => ⟨tail, rfl, rfl⟩
  | .bool false, _, tail, _, fuel + 1, _ => ⟨tail, rfl, rfl⟩
  | .int n, h, tail, closed, fuel + 1, _ => readsTo_int h.1 h.2 closed
  | .num x, h, tail, closed, fuel + 1, _ => readsTo_num h closed
  | .str s, _, tail, _, fuel + 1, _ => readsTo_str s
  | .arr [], _, tail, _, fuel + 1, _ => ⟨tail, rfl, rfl⟩
  | .arr (j :: js), h, tail, _, fuel + 1, hfuel => by
    simp only [chars, List.cons_append, List.length_cons, List.length_append] at hfuel
    have items := scanItems_chars j js h tail fuel (by omega)
    refine ⟨tail, ?_, rfl⟩
    simp only [chars, List.cons_append, List.append_assoc, List.nil_append, scanValue,
      skipBlanks_sign (c := '[') (by decide)]
    split
    · next closes => exact absurd closes (scanItems_ne_bracket items _)
    · rw [items]
      rfl
  | .obj [], _, tail, _, fuel + 1, _ => ⟨tail, rfl, rfl⟩
  | .obj (f :: fields), h, tail, _, fuel + 1, hfuel => by
    simp only [chars, List.cons_append, List.length_cons, List.length_append] at hfuel
    have read := scanFields_chars f fields h tail fuel (by omega)
    refine ⟨tail, ?_, rfl⟩
    simp only [chars, List.cons_append, List.append_assoc, List.nil_append, scanValue,
      skipBlanks_sign (c := '\x7b') (by decide)]
    split
    · next closes => exact absurd closes (scanFields_ne_brace read _)
    · rw [read]
      rfl

theorem scanItems_chars : (j : Json) → (js : List Json) → ExactItems (j :: js) →
    ∀ (tail : List Char) (fuel : Nat), 2 * (charsOfItems (j :: js)).length + 2 ≤ fuel →
    scanItems fuel (charsOfItems (j :: js) ++ ']' :: tail) = some (j :: js, tail)
  | j, [], h, tail, fuel + 1, hfuel => by
    obtain ⟨rest, read, blank⟩ := readsTo_chars j h.1 (']' :: tail) (by simp [Closed])
      fuel (by simpa [charsOfItems] using hfuel)
    simp [charsOfItems, scanItems, read, blank, skipBlanks_sign]
  | j, j' :: js, h, tail, fuel + 1, hfuel => by
    simp only [charsOfItems, List.length_append, List.length_cons] at hfuel
    obtain ⟨rest, read, blank⟩ := readsTo_chars j h.1
      (',' :: (charsOfItems (j' :: js) ++ ']' :: tail)) (by simp [Closed])
      fuel (by omega)
    have others := scanItems_chars j' js h.2 tail fuel (by omega)
    simp only [charsOfItems, List.append_assoc, List.cons_append] at read others ⊢
    simp [scanItems, read, blank, skipBlanks_sign, others]

theorem scanFields_chars : (f : String × Json) → (fields : List (String × Json)) →
    ExactFields (f :: fields) → ∀ (tail : List Char) (fuel : Nat),
    2 * (charsOfFields (f :: fields)).length + 2 ≤ fuel →
    scanFields fuel (charsOfFields (f :: fields) ++ '\x7d' :: tail) = some (f :: fields, tail)
  | (name, j), [], h, tail, fuel + 1, hfuel => by
    simp only [charsOfFields, List.length_append, List.length_cons] at hfuel
    obtain ⟨rest, read, blank⟩ := readsTo_chars j h.1 ('\x7d' :: tail) (by simp [Closed])
      fuel (by omega)
    simp [charsOfFields, scanFields, stringText, skipBlanks_sign, scanString_flatMap, read, blank]
  | (name, j), f :: fields, h, tail, fuel + 1, hfuel => by
    simp only [charsOfFields, List.length_append, List.length_cons] at hfuel
    obtain ⟨rest, read, blank⟩ := readsTo_chars j h.1
      (',' :: (charsOfFields (f :: fields) ++ '\x7d' :: tail)) (by simp [Closed])
      fuel (by omega)
    have others := scanFields_chars f fields h.2 tail fuel (by omega)
    simp [charsOfFields, scanFields, stringText, skipBlanks_sign, scanString_flatMap, read, blank,
      others]

end

/-- An exact value is what its text is read as. -/
theorem read?_compress {j : Json} (h : Exact j) : read? (compress j) = some j := by
  obtain ⟨rest, read, blank⟩ := readsTo_chars j h [] closed_nil (2 * (chars j).length + 1)
    (Nat.le_refl _)
  rw [List.append_nil] at read
  have nothing : skipBlanks rest = [] := blank
  simp [read?, compress, readChars?, read, nothing]

end PrimScript.Json
