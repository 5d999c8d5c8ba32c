import PrimScript.Proofs.Value.Closed

/-! Well-formed values: keys are canonical and lists hold no lists.  Coercion gives such values, and
every value that is made of such values is one. -/

namespace PrimScript

namespace Key

theorem toLower_toLower (c : Char) : c.toLower.toLower = c.toLower := by
  unfold Char.toLower
  grind

theorem isHexDigit_toLower {c : Char} (h : Decimal.isHexDigit c) :
    Decimal.isHexDigit c.toLower := by
  unfold Char.toLower
  split
  · next hc =>
    simp [Decimal.isHexDigit, Decimal.isDigit, Char.le_def, UInt32.le_iff_toNat_le] at h hc ⊢
    omega
  · exact h

theorem wellFormedFrom_map_toLower {cs : List Char} {i : Nat} (h : wellFormedFrom i cs) :
    wellFormedFrom i (cs.map Char.toLower) := by
  induction cs generalizing i with
  | nil => exact h
  | cons c cs ih =>
    rw [wellFormedFrom, Bool.and_eq_true] at h
    rw [List.map_cons, wellFormedFrom, Bool.and_eq_true]
    refine ⟨?_, ih h.2⟩
    by_cases hi : hyphenAt i
    · have hc : c = '-' := by simpa [hi] using h.1
      simp [hi, hc]
    · have hc : Decimal.isHexDigit c := by simpa [hi] using h.1
      simpa [hi] using isHexDigit_toLower hc

@[simp] theorem isCanonical_null : isCanonical null := by
  decide +kernel

theorem isCanonical_normalize (s : String) : isCanonical (normalize s) := by
  unfold normalize
  extract_lets cs
  split
  · next h =>
    rw [isCanonical, Bool.and_eq_true]
    refine ⟨?_, ?_⟩
    · simpa [isValid] using wellFormedFrom_map_toLower h
    · rw [decide_eq_true_eq, String.toList_ofList, List.map_map]
      exact List.map_congr_left fun c _ => toLower_toLower c
  · exact isCanonical_null

theorem isBlank_of_isHexDigit {c : Char} (h : Decimal.isHexDigit c) : Text.isBlank c = false := by
  simp only [Decimal.isHexDigit, Decimal.isDigit, Bool.or_eq_true, Bool.and_eq_true,
    decide_eq_true_eq, Char.le_def, UInt32.le_iff_toNat_le] at h
  simp only [Text.isBlank, Text.blankRanges, List.any_cons, List.any_nil, Bool.or_false,
    Bool.or_eq_false_iff, Bool.and_eq_false_iff, decide_eq_false_iff_not]
  simp at h
  omega

theorem isBlank_of_wellFormedFrom {cs : List Char} {i : Nat} (h : wellFormedFrom i cs) :
    ∀ c ∈ cs, Text.isBlank c = false := by
  induction cs generalizing i with
  | nil => simp
  | cons c cs ih =>
    rw [wellFormedFrom, Bool.and_eq_true] at h
    refine List.forall_mem_cons.2 ⟨?_, ih h.2⟩
    by_cases hi : hyphenAt i
    · have hc : c = '-' := by simpa [hi] using h.1
      rw [hc]
      decide
    · exact isBlank_of_isHexDigit (by simpa [hi] using h.1)

theorem trim_of_wellFormedFrom {cs : List Char} {i : Nat} (h : wellFormedFrom i cs) :
    Text.trim cs = cs := by
  have hb := isBlank_of_wellFormedFrom h
  have hs {ds : List Char} (hd : ∀ c ∈ ds, Text.isBlank c = false) :
      ds.dropWhile Text.isBlank = ds := by
    cases ds with
    | nil => rfl
    | cons d ds => simp [hd d]
  rw [Text.trim, Text.trimStart, hs hb, Text.trimEnd, hs (by simpa using hb), List.reverse_reverse]

theorem normalize_of_isCanonical {s : String} (h : isCanonical s) : normalize s = s := by
  rw [isCanonical, Bool.and_eq_true, isValid, decide_eq_true_eq] at h
  rw [normalize, trim_of_wellFormedFrom h.1, if_pos h.1, h.2, String.ofList_toList]

end Key

namespace Value

def Plain : Value → Prop
  | .list _ => False
  | .key k => Key.isCanonical k
  | _ => True

def WellFormed : Value → Prop
  | .list items => ∀ v ∈ items, v.Plain
  | .key k => Key.isCanonical k
  | _ => True

theorem Plain.wellFormed {v : Value} (h : v.Plain) : v.WellFormed := by
  cases v with
  | list items => cases h
  | key k => exact h
  | _ => trivial

theorem WellFormed.plain {v : Value} (h : v.WellFormed) (ht : v.type ≠ .list) : v.Plain := by
  cases v with
  | list items => exact absurd rfl ht
  | key k => exact h
  | _ => trivial

theorem WellFormed.plain_of_mem {v x : Value} (h : v.WellFormed) (hx : x ∈ v.asList) :
    x.Plain := by
  cases v with
  | list items => exact h x hx
  | _ =>
    cases List.mem_singleton.1 hx
    exact h.plain nofun

theorem plain_ofKey (s : String) : (ofKey s).Plain := Key.isCanonical_normalize s

theorem wellFormed_ofChars (t : ValueType) (cs : List Char) : (ofChars t cs).WellFormed := by
  cases t with
  | key => exact Key.isCanonical_normalize _
  | list =>
    intro v hv
    cases List.mem_singleton.1 hv
    trivial
  | _ => trivial

mutual

theorem wellFormed_coerce_of_ne {t : ValueType} (ht : t ≠ .list) :
    (v : Value) → (v.coerce t).WellFormed
  | .list items => by
    rw [coerce, if_neg ht]
    exact wellFormed_coerceItems ht items
  | .key k => by
    rw [coerce, if_neg ht]
    split
    · exact (plain_ofKey k).wellFormed
    · exact wellFormed_ofChars t _
  | .integer n => by
    unfold coerce
    split
    · trivial
    · trivial
    · exact absurd rfl ht
    · exact wellFormed_ofChars t _
  | .float x => by
    unfold coerce
    split
    · trivial
    · trivial
    · exact absurd rfl ht
    · exact wellFormed_ofChars t _
  | .string s => by
    rw [coerce]
    split
    · trivial
    · exact wellFormed_ofChars t _
  | .vector v => by
    rw [coerce, if_neg ht]
    split
    · trivial
    · exact wellFormed_ofChars t _
  | .rotation r => by
    rw [coerce, if_neg ht]
    split
    · trivial
    · exact wellFormed_ofChars t _

theorem wellFormed_coerceItems {t : ValueType} (ht : t ≠ .list) :
    (vs : List Value) → (coerceItems t vs).WellFormed
  | [] => wellFormed_ofChars t _
  | [v] => wellFormed_coerce_of_ne ht v
  | _ :: _ :: _ => wellFormed_ofChars t _

end

theorem wellFormed_coerce_list {v : Value} (h : v.WellFormed) : (v.coerce .list).WellFormed := by
  cases v with
  | list items => exact h
  | string s => exact wellFormed_ofChars .list _
  | _ =>
    intro x hx
    cases List.mem_singleton.1 hx
    exact h.plain nofun

theorem WellFormed.coerce {v : Value} (h : v.WellFormed) (t : ValueType) :
    (v.coerce t).WellFormed := by
  by_cases ht : t = .list
  · rw [ht]
    exact wellFormed_coerce_list h
  · exact wellFormed_coerce_of_ne ht v

theorem closed_wellFormed : Closed WellFormed where
  integer _ := trivial
  float _ := trivial
  string _ := trivial
  null := Key.isCanonical_null
  vector _ := trivial
  rotation _ := trivial
  items hv hx := (hv.plain_of_mem hx).wellFormed
  list h := fun x hx => by
    obtain ⟨v, hv, hx⟩ := h x hx
    exact hv.plain_of_mem hx
  coerce t _ hv := hv.coerce t

end Value

end PrimScript
