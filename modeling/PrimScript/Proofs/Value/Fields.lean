import Mathlib.Data.List.TakeWhile
import PrimScript.Proofs.Value.Lossless
import PrimScript.Proofs.Value.Text
import PrimScript.Text.Tokens

/-! Texts of values separated by commas, written and read again.  The reader counts the brackets that are open.
It finds no end of a field in a text whose brackets match and whose commas stand in brackets, and at the end of
it as many brackets are open as at its beginning; so the texts that were joined are found again, as long as no
blanks are at their ends.  Those of values are such texts: numbers and keys have no blanks, commas or brackets in
them, and the commas of vectors and rotations stand in brackets. -/

namespace PrimScript

namespace Text

structure Trimmed (cs : List Char) : Prop where
  first : ∀ c ∈ cs.head?, isBlank c = false
  last : ∀ c ∈ cs.getLast?, isBlank c = false

theorem trimmed_iff {cs : List Char} :
    Trimmed cs ↔ cs.head?.any isBlank = false ∧ cs.getLast?.any isBlank = false := by
  simp only [Option.any_eq_false]
  exact ⟨fun h => ⟨h.first, h.last⟩, fun h => ⟨h.1, h.2⟩⟩

instance (cs : List Char) : Decidable (Trimmed cs) := decidable_of_iff' _ trimmed_iff

/-- A text with so many brackets open around it: its own brackets match, and its commas stand in brackets. -/
inductive Matched : (depth : Nat) → List Char → Prop
  | nil {depth : Nat} : Matched depth []
  | char {depth : Nat} {c : Char} {cs : List Char} (hopen : c ≠ '<') (hclose : c ≠ '>')
    (hcomma : c = ',' → 0 < depth) : Matched depth cs → Matched depth (c :: cs)
  | bracketed {depth : Nat} {inside cs : List Char} : Matched (depth + 1) inside → Matched depth cs →
    Matched depth ('<' :: (inside ++ '>' :: cs))

variable {c : Char} {cs piece : List Char} {pieces : List (List Char)} {depth : Nat}

theorem dropWhile_of_head? {p : Char → Bool} (h : ∀ c ∈ cs.head?, p c = false) : cs.dropWhile p = cs := by
  cases cs with
  | nil => rfl
  | cons c cs => rw [List.dropWhile_cons, h c rfl, if_neg Bool.false_ne_true]

theorem Trimmed.trim_eq (h : Trimmed cs) : trim cs = cs := by
  have hlast : ∀ c ∈ cs.reverse.head?, isBlank c = false := by
    rw [List.head?_reverse]
    exact h.last
  rw [trim, trimStart, dropWhile_of_head? h.first, trimEnd, dropWhile_of_head? hlast, List.reverse_reverse]

theorem trim_append {pad : List Char} (h : ∀ c ∈ pad, isBlank c) (cs : List Char) :
    trim (pad ++ cs) = trim cs := by
  rw [trim, trimStart, List.dropWhile_append_of_pos h]
  rfl

theorem trimmed_of_forall (h : ∀ c ∈ cs, isBlank c = false) : Trimmed cs :=
  ⟨fun c hc => h c (List.mem_of_mem_head? hc), fun c hc => h c (List.mem_of_getLast? hc)⟩

theorem Matched.of_forall (h : ∀ c ∈ cs, c ≠ '<' ∧ c ≠ '>' ∧ (c = ',' → 0 < depth)) : Matched depth cs := by
  induction cs with
  | nil => exact .nil
  | cons c cs ih =>
    obtain ⟨hopen, hclose, hcomma⟩ := h c (List.mem_cons_self ..)
    exact .char hopen hclose hcomma (ih fun d hd => h d (List.mem_cons_of_mem _ hd))

theorem Matched.fieldsFrom_append (h : Matched depth piece) (current rest : List Char) :
    fieldsFrom depth current (piece ++ rest) = fieldsFrom depth (piece.reverse ++ current) rest := by
  induction h generalizing current rest with
  | nil => rfl
  | @char depth c cs hopen hclose hcomma _ ih =>
    have hinside : ¬ (c = ',' ∧ depth = 0) := fun ⟨hc, hdepth⟩ => Nat.ne_of_gt (hcomma hc) hdepth
    rw [List.cons_append, fieldsFrom, if_neg hopen, if_neg hclose, if_neg hinside, ih, List.reverse_cons,
      List.append_assoc, List.singleton_append]
  | @bracketed depth inside cs _ _ ihinside ih =>
    rw [List.cons_append, fieldsFrom, if_pos rfl, List.append_assoc, ihinside, List.cons_append, fieldsFrom,
      if_neg (by decide), if_pos rfl, Nat.add_sub_cancel, ih]
    simp

/-- A text that is read as one field. -/
structure IsField (piece : List Char) : Prop where
  matched : Matched 0 piece
  trimmed : Trimmed piece

namespace IsField

variable {current : List Char}

theorem trim_reverse (h : IsField piece) (hcurrent : ∀ c ∈ current, isBlank c) :
    trim (piece.reverse ++ current).reverse = piece := by
  rw [List.reverse_append, List.reverse_reverse, trim_append (by simpa using hcurrent), h.trimmed.trim_eq]

theorem fieldsFrom_comma (h : IsField piece) (hcurrent : ∀ c ∈ current, isBlank c) (rest : List Char) :
    fieldsFrom 0 current (piece ++ ',' :: rest) = piece :: fieldsFrom 0 [] rest := by
  rw [h.matched.fieldsFrom_append, fieldsFrom, if_neg (by decide), if_neg (by decide), if_pos ⟨rfl, rfl⟩,
    h.trim_reverse hcurrent]

theorem fieldsFrom_end (h : IsField piece) (hcurrent : ∀ c ∈ current, isBlank c) :
    fieldsFrom 0 current piece = [piece] := by
  have hread := h.matched.fieldsFrom_append current []
  rwa [List.append_nil, fieldsFrom, h.trim_reverse hcurrent] at hread

end IsField

theorem joinWith_cons (sep next : List Char) :
    joinWith sep (piece :: next :: pieces) = piece ++ (sep ++ joinWith sep (next :: pieces)) :=
  List.append_assoc ..

theorem fieldsFrom_joinWith {current : List Char} (hcurrent : ∀ c ∈ current, isBlank c)
    (h : ∀ p ∈ piece :: pieces, IsField p) :
    fieldsFrom 0 current (joinWith [',', ' '] (piece :: pieces)) = piece :: pieces := by
  induction pieces generalizing piece current with
  | nil => exact (h piece (.head _)).fieldsFrom_end hcurrent
  | cons next pieces ih =>
    have hspace : ∀ c ∈ [' '], isBlank c := List.forall_mem_singleton.2 rfl
    have hnext := ih hspace fun p hp => h p (.tail _ hp)
    rw [joinWith_cons, List.cons_append, (h piece (.head _)).fieldsFrom_comma hcurrent, List.cons_append,
      List.nil_append, fieldsFrom, if_neg (by decide), if_neg (by decide), if_neg (by decide), hnext]

theorem eq_nil_of_joinWith_eq_nil (h : joinWith [',', ' '] (piece :: pieces) = []) :
    piece :: pieces = [[]] := by
  cases pieces with
  | nil => rw [← h]; rfl
  | cons next pieces =>
    rw [joinWith_cons] at h
    cases (List.append_eq_nil_iff.1 h).2

theorem fields_joinWith (hpieces : pieces ≠ []) (h : ∀ p ∈ pieces, IsField p) (hne : pieces ≠ [[]]) :
    fields (joinWith [',', ' '] pieces) = pieces := by
  cases pieces with
  | nil => exact absurd rfl hpieces
  | cons piece pieces =>
    rw [fields, if_neg fun hnil => hne (eq_nil_of_joinWith_eq_nil hnil)]
    exact fieldsFrom_joinWith (by simp) h

end Text

open Text (IsField Matched Trimmed isBlank joinWith)

def isSolid (c : Char) : Bool := !isBlank c && c != ',' && c != '<' && c != '>'

section Solid

variable {c : Char} {cs : List Char}

theorem isSolid_iff : isSolid c = true ↔ isBlank c = false ∧ c ≠ ',' ∧ c ≠ '<' ∧ c ≠ '>' := by
  simp [isSolid, and_assoc]

theorem isSolid_of_isHexDigit (h : Decimal.isHexDigit c) : isSolid c = true := by
  have hne (d : Char) (hd : Decimal.isHexDigit d = false) : c ≠ d := by
    rintro rfl
    rw [h] at hd
    exact Bool.noConfusion hd
  exact isSolid_iff.2
    ⟨Key.isBlank_of_isHexDigit h, hne ',' (by decide), hne '<' (by decide), hne '>' (by decide)⟩

theorem isSolid_of_isDigit (h : Decimal.isDigit c) : isSolid c = true :=
  isSolid_of_isHexDigit (by simp [Decimal.isHexDigit, h])

theorem isSolid_of_isNumeralChar (h : Decimal.isNumeralChar c) : isSolid c = true := by
  simp only [Decimal.isNumeralChar, Decimal.continues, Bool.or_eq_true, decide_eq_true_eq] at h
  rcases h with ((((h | rfl) | rfl) | rfl) | rfl) | rfl
  · exact isSolid_of_isDigit h
  · decide
  · decide
  · decide
  · decide
  · decide

theorem isSolid_of_mem_fixed {places : Nat} (h : 0 < places) {e : Decimal.Expansion} :
    ∀ c ∈ e.fixed places, isSolid c = true := by
  have hword : ['N', 'a', 'i', 'n', 'f'].all isSolid = true := by decide
  exact fun c hc => (Decimal.mem_fixed h hc).elim isSolid_of_isNumeralChar (List.all_eq_true.1 hword c)

theorem isSolid_of_mem_integerText (n : Int) : ∀ c ∈ Decimal.integerText n, isSolid c = true := by
  have hdigits : ∀ c ∈ Nat.toDigits 10 n.natAbs, isSolid c = true := fun c hc =>
    isSolid_of_isDigit (Decimal.isDigit_of_mem_toDigits hc)
  unfold Decimal.integerText Decimal.integerText.signedDigits
  split
  · exact List.forall_mem_cons.2 ⟨by decide, hdigits⟩
  · exact hdigits

theorem isSolid_of_wellFormedFrom {i : Nat} (h : Key.wellFormedFrom i cs) : ∀ c ∈ cs, isSolid c = true := by
  induction cs generalizing i with
  | nil => simp
  | cons c cs ih =>
    rw [Key.wellFormedFrom, Bool.and_eq_true] at h
    refine List.forall_mem_cons.2 ⟨?_, ih h.2⟩
    have hc := h.1
    split at hc
    · rw [of_decide_eq_true hc]
      decide
    · exact isSolid_of_isHexDigit hc

theorem isField_of_solid (h : ∀ c ∈ cs, isSolid c = true) : IsField cs where
  matched := .of_forall fun c hc => by
    obtain ⟨-, hcomma, hopen, hclose⟩ := isSolid_iff.1 (h c hc)
    exact ⟨hopen, hclose, fun heq => absurd heq hcomma⟩
  trimmed := Text.trimmed_of_forall fun c hc => (isSolid_iff.1 (h c hc)).1

end Solid

namespace Value

theorem isSolid_of_mem_components (xs : List Float) :
    ∀ p ∈ xs.map fun x => Decimal.Expansion.fixed 5 (.ofFloat x), ∀ c ∈ p, isSolid c = true := by
  intro p hp
  obtain ⟨x, -, rfl⟩ := List.mem_map.1 hp
  exact isSolid_of_mem_fixed (by decide)

theorem isField_bracketed {parts : List (List Char)} (h : ∀ p ∈ parts, ∀ c ∈ p, isSolid c = true) :
    IsField (bracketed parts) where
  matched := by
    refine .bracketed (.of_forall fun c hc => ?_) .nil
    rcases Text.mem_joinWith hc with hc | ⟨p, hp, hc⟩
    · simp only [List.mem_cons, List.not_mem_nil, or_false] at hc
      rcases hc with rfl | rfl <;> decide
    · obtain ⟨-, hcomma, hopen, hclose⟩ := isSolid_iff.1 (h p hp c hc)
      exact ⟨hopen, hclose, fun heq => absurd heq hcomma⟩
  trimmed := by
    have hopen : isBlank '<' = false := rfl
    have hclose : isBlank '>' = false := rfl
    exact ⟨by simpa [bracketed] using hopen, by simpa [bracketed, List.getLast?_cons] using hclose⟩

/-- A value that is written as one field: a string without commas and angle brackets and without blanks at its
ends, a canonical key, or any number, vector or rotation. -/
def FillsField : Value → Prop
  | .string s => (∀ c ∈ s.toList, c ≠ ',' ∧ c ≠ '<' ∧ c ≠ '>') ∧ Trimmed s.toList
  | .key k => Key.isCanonical k
  | .list _ => False
  | _ => True

-- For a string the characters of it are tried; the instance that is found tries all there are.
instance decidableFillsField : DecidablePred FillsField
  | .string s =>
    let characters := List.decidableBAll (fun c => c ≠ ',' ∧ c ≠ '<' ∧ c ≠ '>') s.toList
    @instDecidableAnd _ (Trimmed s.toList) characters inferInstance
  | .key k => inferInstanceAs (Decidable (Key.isCanonical k = true))
  | .list _ => .isFalse id
  | .integer _ | .float _ | .vector _ | .rotation _ => .isTrue trivial

theorem FillsField.isField {v : Value} (h : v.FillsField) : IsField v.chars := by
  cases v with
  | integer n => exact isField_of_solid (isSolid_of_mem_integerText n.toInt)
  | float x => exact isField_of_solid (isSolid_of_mem_fixed (by decide))
  | string s =>
    exact ⟨.of_forall fun c hc => ⟨(h.1 c hc).2.1, (h.1 c hc).2.2, fun heq => absurd heq (h.1 c hc).1⟩, h.2⟩
  | key k =>
    rw [FillsField, Key.isCanonical, Bool.and_eq_true] at h
    exact isField_of_solid (isSolid_of_wellFormedFrom h.1)
  | vector v =>
    rw [chars, vectorText_eq]
    exact isField_bracketed (isSolid_of_mem_components [v.x, v.y, v.z])
  | rotation r =>
    rw [chars, rotationText_eq]
    exact isField_bracketed (isSolid_of_mem_components [r.x, r.y, r.z, r.s])
  | list items => exact h.elim

theorem FillsField.chars_ne_nil {v : Value} (h : v.FillsField) (hne : v ≠ .string "") : v.chars ≠ [] := by
  intro hnil
  cases v with
  | integer n =>
    change Decimal.integerText n.toInt = [] at hnil
    unfold Decimal.integerText Decimal.integerText.signedDigits at hnil
    split at hnil
    · cases hnil
    · exact Nat.toDigits_ne_nil hnil
  | float x =>
    obtain ⟨y, hy⟩ := @exists_rereads 6 (by decide) (by decide) x
    have hread := floatPrefix?_chars hy
    rw [hnil] at hread
    cases hread
  | string s => exact hne (congrArg Value.string (String.toList_eq_nil_iff.1 hnil))
  | key k =>
    rw [chars] at hnil
    rw [FillsField, Key.isCanonical, Key.isValid, hnil] at h
    cases h
  | vector v =>
    rw [chars, vectorText_eq] at hnil
    cases hnil
  | rotation r =>
    rw [chars, rotationText_eq] at hnil
    cases hnil
  | list items => exact h.elim

end Value

end PrimScript
