import PrimScript.Proofs.Library.Computes
import PrimScript.Proofs.Text.Escape
import PrimScript.Proofs.Text.Splitting
import PrimScript.Proofs.Value.Fields

/-! Functions for texts, and what undoes them.  A text stands where it is found, and nowhere before; what has been
cut out of a text is put back in; tokens are joined again, fields are read as they were written, and an escaped
text is unescaped. -/

namespace PrimScript.Library

open Text

theorem computes_stringLength (s : String) :
    Computes "llStringLength" [.string s] (.integer (Int32.ofNat s.toList.length)) :=
  ⟨_, by rfl, fun _ _ => rfl⟩

theorem computes_getSubString (s : String) (first last : Int32) :
    Computes "llGetSubString" [.string s, .integer first, .integer last]
      (.string (String.ofList (Slice.keep s.toList first last))) :=
  ⟨_, by rfl, fun _ _ => rfl⟩

theorem computes_deleteSubString (s : String) (first last : Int32) :
    Computes "llDeleteSubString" [.string s, .integer first, .integer last]
      (.string (String.ofList (Slice.drop s.toList first last))) :=
  ⟨_, by rfl, fun _ _ => rfl⟩

theorem computes_insertString (dst : String) (i : Int32) (src : String) :
    Computes "llInsertString" [.string dst, .integer i, .string src]
      (.string (String.ofList (insertString dst.toList i src.toList))) :=
  ⟨_, by rfl, fun _ _ => rfl⟩

theorem computes_subStringIndex (src pattern : String) :
    Computes "llSubStringIndex" [.string src, .string pattern]
      (.integer (subStringIndex src.toList pattern.toList)) :=
  ⟨_, by rfl, fun _ _ => rfl⟩

def IsAt (s p : String) (length j : Int32) : Prop :=
  Computes "llGetSubString" [.string s, .integer j, .integer (j + length - 1)] (.string p)

theorem isAt_iff {s p : String} {length j : Int32} :
    IsAt s p length j ↔ Slice.keep s.toList j (j + length - 1) = p.toList := by
  refine ⟨fun h => ?_, fun h => ?_⟩
  · have hsame := Value.string.inj (h.unique (computes_getSubString s j (j + length - 1)))
    rw [hsame, String.toList_ofList]
  · have hgiven := computes_getSubString s j (j + length - 1)
    rwa [h, String.ofList_toList] at hgiven

/-- The place where a text first occurs among the bytes of another one, counted in the characters before it.
There is none where a character is cut. -/
def indexByBytes? (src pattern : List Char) : Option Int32 :=
  match placeOf? (bytes pattern) (bytes src) with
  | some n => (slice? 0 n src).map fun before => Int32.ofNat before.length
  | none => some (-1)

theorem subStringIndex_eq (src pattern : List Char) :
    subStringIndex src pattern = ((placeOf? pattern src).map Int32.ofNat).getD (-1) := by
  rw [subStringIndex, indexOf?_eq_placeOf?]
  cases placeOf? pattern src with
  | none => rfl
  | some i => rfl

theorem indexByBytes?_eq_some (src : List Char) {pattern : List Char} (hp : pattern ≠ []) :
    indexByBytes? src pattern = some (subStringIndex src pattern) := by
  rw [indexByBytes?, subStringIndex_eq, placeOf?_bytes hp]
  cases h : placeOf? pattern src with
  | none => rfl
  | some i =>
    have hlength := List.length_take_of_le (placeOf?_eq_some_iff.1 h).1
    simp only [Option.map_some, Option.getD_some, slice?_isPrefix (List.take_prefix i src), hlength]

section Index

variable {s p : String} {j : Int32}

theorem subStringIndex_cases (hs : s.toList.length < 2 ^ 31) :
    (subStringIndex s.toList p.toList = -1 ∧ placeOf? p.toList s.toList = none) ∨
      ∃ n, subStringIndex s.toList p.toList = Int32.ofNat n ∧
        (Int32.ofNat n).toInt = n ∧ placeOf? p.toList s.toList = some n := by
  rw [subStringIndex_eq]
  cases h : placeOf? p.toList s.toList with
  | none => exact .inl ⟨rfl, rfl⟩
  | some n =>
    have hn := (placeOf?_eq_some_iff.1 h).1
    exact .inr ⟨n, rfl, Int32.toInt_ofNat_of_lt (by omega), rfl⟩

theorem isAt_subStringIndex (hs : s.toList.length < 2 ^ 31) (hne : p.toList ≠ [])
    (h : 0 ≤ subStringIndex s.toList p.toList) :
    IsAt s p (Int32.ofNat p.toList.length) (subStringIndex s.toList p.toList) := by
  rcases subStringIndex_cases hs with ⟨hindex, -⟩ | ⟨n, hindex, -, hplace⟩
  · rw [hindex] at h
    exact absurd h (by decide)
  · rw [hindex]
    exact isAt_iff.2 (Slice.keep_lastOf hne hs (placeOf?_eq_some_iff.1 hplace).2.1)

theorem subStringIndex_le (hs : s.toList.length < 2 ^ 31) (hp : p.toList.length < 2 ^ 31) (hne : p.toList ≠ [])
    (hj : 0 ≤ j ∨ Slice.place s.toList.length j ≤
      Slice.place s.toList.length (Slice.lastOf j p.toList.length))
    (h : IsAt s p (Int32.ofNat p.toList.length) j) :
    0 ≤ (subStringIndex s.toList p.toList).toInt ∧
      (subStringIndex s.toList p.toList).toInt ≤ Slice.place s.toList.length j := by
  obtain ⟨hnonneg, hprefix⟩ := Slice.prefix_of_keep_lastOf hne hp hs hj (isAt_iff.1 h)
  rcases subStringIndex_cases (p := p) hs with ⟨-, hplace⟩ | ⟨n, hindex, hn, hplace⟩
  · exact absurd hprefix (placeOf?_eq_none_iff.1 hplace _)
  · rw [hindex, hn]
    refine ⟨Int.natCast_nonneg n, ?_⟩
    by_contra hlt
    exact (placeOf?_eq_some_iff.1 hplace).2.2 _ (by omega) hprefix

end Index

theorem insertString_of_nonneg (dst src : List Char) {i : Int32} (h : 0 ≤ i) :
    insertString dst i src = Slice.insert dst src i := by
  have hi : 0 ≤ i.toInt := Int32.le_iff_toInt_le.1 h
  have hplace : min i.toInt.toNat dst.length = Slice.clamp dst.length i.toInt := by
    unfold Slice.clamp
    omega
  rw [insertString, Slice.insert, Slice.place_of_nonneg _ h, if_neg (Int32.not_lt.2 h), hplace]

/-- A text that is found stands where it is found, and at no place before, and one that is not found stands
nowhere; nor does it stand before that at a place counted from the end, unless the characters taken wrap around the
end.  What a range takes out of a text is put back in at the first place of the range. -/
theorem substrings_consistent (s p : String) (hs : s.length < 2 ^ 31) (hp : p.length < 2 ^ 31) (hne : p ≠ "") :
    (∃ i length : Int32,
      Computes "llSubStringIndex" [.string s, .string p] (.integer i) ∧
      Computes "llStringLength" [.string p] (.integer length) ∧
      indexByBytes? s.toList p.toList = some i ∧
      (0 ≤ i → IsAt s p length i ∧ ∀ j, 0 ≤ j → j < i → ¬ IsAt s p length j) ∧
      (¬ 0 ≤ i → i = -1 ∧ ∀ j, 0 ≤ j → ¬ IsAt s p length j) ∧
      ∀ j, Slice.place s.length j ≤ Slice.place s.length (j + length - 1) → IsAt s p length j →
        0 ≤ i ∧ i.toInt ≤ Slice.place s.length j) ∧
    ∀ a b : Int32, 0 ≤ a → a ≤ b → ∃ cut rest : String,
      Computes "llGetSubString" [.string s, .integer a, .integer b] (.string cut) ∧
      Computes "llDeleteSubString" [.string s, .integer a, .integer b] (.string rest) ∧
      Computes "llInsertString" [.string rest, .integer a, .string cut] (.string s) := by
  rw [← String.length_toList] at hs hp
  have hne' : p.toList ≠ [] := mt String.toList_eq_nil_iff.1 hne
  refine ⟨⟨_, _, computes_subStringIndex s p, computes_stringLength p, indexByBytes?_eq_some _ hne',
    fun h => ⟨isAt_subStringIndex hs hne' h, fun j hj hlt hat => ?_⟩, fun h => ⟨?_, fun j hj hat => ?_⟩,
    fun j hj hat => ?_⟩, fun a b ha hab => ?_⟩
  · have hle := (subStringIndex_le hs hp hne' (.inl hj) hat).2
    rw [Slice.place_of_nonneg _ hj] at hle
    exact absurd hlt (Int32.not_lt.2 (Int32.le_iff_toInt_le.2 hle))
  · rcases subStringIndex_cases (p := p) hs with ⟨hindex, -⟩ | ⟨n, hindex, hn, -⟩
    · exact hindex
    · rw [hindex, Int32.le_iff_toInt_le, Int32.toInt_zero, hn] at h
      exact absurd (Int.natCast_nonneg n) h
  · exact h (Int32.le_iff_toInt_le.2 (subStringIndex_le hs hp hne' (.inl hj) hat).1)
  · rw [← String.length_toList] at hj ⊢
    have hle := subStringIndex_le hs hp hne' (.inr hj) hat
    exact ⟨Int32.le_iff_toInt_le.2 hle.1, hle.2⟩
  · have hback := computes_insertString (String.ofList (Slice.drop s.toList a b)) a
      (String.ofList (Slice.keep s.toList a b))
    rw [String.toList_ofList, String.toList_ofList, insertString_of_nonneg _ _ ha,
      Slice.insert_drop_keep _ ha hab, String.ofList_toList] at hback
    exact ⟨_, _, computes_getSubString s a b, computes_deleteSubString s a b, hback⟩

/-- A character of three bytes, behind one of a single byte. -/
theorem substrings_consistent_snow : "a☃b☃".length < 2 ^ 31 ∧ "☃".length < 2 ^ 31 ∧ "☃" ≠ "" ∧
    Computes "llSubStringIndex" [.string "a☃b☃", .string "☃"] (.integer 1) ∧
    IsAt "a☃b☃" "☃" 1 1 ∧ ¬ IsAt "a☃b☃" "☃" 1 0 := by
  refine ⟨by decide, by decide, by decide, ?_⟩
  obtain ⟨i, length, hindex, hlength, -, hfound, -⟩ :=
    (substrings_consistent "a☃b☃" "☃" (by decide) (by decide) (by decide)).1
  obtain rfl : length = 1 := Value.integer.inj (hlength.unique (computes_stringLength "☃"))
  obtain rfl : i = 1 := Value.integer.inj (hindex.unique (computes_subStringIndex "a☃b☃" "☃"))
  obtain ⟨hat, hbefore⟩ := hfound (by decide)
  exact ⟨hindex, hat, hbefore 0 (by decide) (by decide)⟩

theorem computes_replaceSubString (s p r : String) (count : Int32) :
    Computes "llReplaceSubString" [.string s, .string p, .string r, .integer count]
      (.string (String.ofList (replaceSubString s.toList p.toList r.toList count))) :=
  ⟨_, by rfl, fun _ _ => rfl⟩

/-- Of the places where a text is found, those where it is replaced: the first ones for a positive count, the last
ones for a negative one, and all for zero. -/
def selected (count : Int32) (places : List Nat) : List Nat :=
  if count = 0 then places
  else if 0 < count then places.take (min places.length count.toInt.toNat)
  else places.drop (places.length - min places.length count.toInt.natAbs)

theorem selected_sublist (count : Int32) (places : List Nat) : (selected count places).Sublist places := by
  unfold selected
  split
  · exact .refl _
  · split
    · exact List.take_sublist _ _
    · exact List.drop_sublist _ _

theorem selected_of_length_le {count : Int32} {places : List Nat} (h : places.length ≤ count.toInt.natAbs) :
    selected count places = places := by
  unfold selected
  split
  · rfl
  · split
    · next hpos =>
      have hcount := Int32.lt_iff_toInt_lt.1 hpos
      rw [Int32.toInt_zero] at hcount
      rw [Nat.min_eq_left (by omega), List.take_length]
    · rw [Nat.min_eq_left h, Nat.sub_self, List.drop_zero]

theorem selected_map (f : Nat → Nat) (count : Int32) (places : List Nat) :
    selected count (places.map f) = (selected count places).map f := by
  unfold selected
  rw [List.length_map]
  split
  · rfl
  · split
    · exact List.map_take.symm
    · exact List.map_drop.symm

theorem filterPlaces_isChosen (count : Int32) (places : List Nat) :
    Slice.filterPlaces (isChosen places.length count) places = selected count places := by
  have hzero : count.toInt = 0 ↔ count = 0 := by rw [← Int32.toInt_zero, Int32.toInt_inj]
  have hpos : 0 < count.toInt ↔ 0 < count := by rw [Int32.lt_iff_toInt_lt, Int32.toInt_zero]
  unfold selected isChosen
  simp only [hzero, hpos]
  split
  · exact Slice.filterPlaces_all _ fun _ _ => rfl
  · split
    · next h =>
      have hcount := hpos.2 h
      refine (Slice.filterPlaces_stretch (a := 0) (Nat.zero_le _) (Nat.min_le_left _ _) fun i hi => ?_).trans
        List.drop_zero
      rw [decide_eq_true_iff]
      omega
    · refine (Slice.filterPlaces_stretch (b := places.length) (Nat.sub_le _ _) (Nat.le_refl _) fun i hi => ?_).trans
        (congrArg (List.drop _) (List.take_length ..))
      rw [decide_eq_true_iff]
      omega

section Replace

variable {p cs : List Char} {i last : Nat} {places : List Nat} (r : List Char)

theorem length_cutAt (hp : p ≠ []) (h : Found p i cs places) : (cutAt p 0 cs).2.length = places.length := by
  induction h with
  | nil => rfl
  | here _ ih => rw [cutAt_append hp, List.length_cons, List.length_cons, ih]
  | there hnot _ ih => rw [cutAt_cons hnot, ih]

theorem spliceFrom_chosen (hp : p ≠ []) (h : Found p i cs places) (chosen : Nat → Bool) :
    ∀ (before : List Char) (last k : Nat), before.length = i → last ≤ i →
      spliceFrom p.length r (before ++ cs) last (Slice.filterPlaces (fun j => chosen (j + k)) places) =
        before.drop last ++ ((cutAt p 0 cs).1 ++ rejoin p r chosen k (cutAt p 0 cs).2) := by
  induction h with
  | nil =>
    intro before last k _ _
    rw [List.append_nil]
    exact (List.append_nil _).symm
  | @here i cs places _ ih =>
    intro before last k hlength hlast
    have hnext : (before ++ p).length = i + p.length := by rw [List.length_append, hlength]
    have hshift : (fun j => chosen (j + 1 + k)) = fun j => chosen (j + (k + 1)) := by
      funext j
      rw [Nat.add_assoc, Nat.add_comm 1]
    rw [cutAt_append hp, rejoin, Slice.filterPlaces_cons, Nat.zero_add, hshift]
    split
    · have hrest := ih (before ++ p) (i + p.length) (k + 1) hnext (Nat.le_refl _)
      rw [List.drop_eq_nil_of_le (Nat.le_of_eq hnext), List.append_assoc] at hrest
      rw [spliceFrom, hrest, Slice.stretch, List.take_left' hlength]
      simp only [List.nil_append, List.append_assoc]
    · have hrest := ih (before ++ p) last (k + 1) hnext (Nat.le_add_right_of_le hlast)
      rw [List.drop_append_of_le_length (hlength ▸ hlast), List.append_assoc] at hrest
      rw [hrest]
      simp only [List.nil_append, List.append_assoc]
  | @there i c cs places hnot _ ih =>
    intro before last k hlength hlast
    have hnext : (before ++ [c]).length = i + 1 := by rw [List.length_append, hlength]; rfl
    have hrest := ih (before ++ [c]) last k hnext (Nat.le_succ_of_le hlast)
    rw [List.drop_append_of_le_length (hlength ▸ hlast), List.append_assoc, List.append_assoc] at hrest
    rw [cutAt_cons hnot]
    exact hrest

theorem replaceSubString_eq (hp : p ≠ []) (h : Found p 0 cs places) (count : Int32) :
    replaceSubString cs p r count = spliceFrom p.length r cs 0 (selected count places) := by
  have hjoined : replaceSubString cs p r count =
      (cutAt p 0 cs).1 ++ rejoin p r (isChosen (cutAt p 0 cs).2.length count) 0 (cutAt p 0 cs).2 := if_neg hp
  have hspliced := spliceFrom_chosen r hp h (isChosen places.length count) [] 0 0 rfl (Nat.le_refl _)
  rw [hjoined, length_cutAt hp h, ← filterPlaces_isChosen]
  exact hspliced.symm

end Replace

/-- A text is replaced where it is found, from the left or from the right as often as the count says, and what lies
between stays as it is.  So replacing it by itself changes nothing, and a count of as many as there are, or more, is
as good as zero.  Among the bytes it is found as often, and cutting there never cuts a character. -/
theorem replaced_where_found (s p r : String) (hp : p ≠ "") (count : Int32) :
    ∃ (places : List Nat) (result : String),
      Found p.toList 0 s.toList places ∧
      Computes "llReplaceSubString" [.string s, .string p, .string r, .integer count] (.string result) ∧
      result.toList = spliceFrom p.length r.toList s.toList 0 (selected count places) ∧
      (r = p → result = s) ∧
      (places.length ≤ count.toInt.natAbs →
        Computes "llReplaceSubString" [.string s, .string p, .string r, .integer 0] (.string result)) ∧
      ∃ atBytes : List Nat,
        Found (bytes p.toList) 0 (bytes s.toList) atBytes ∧ atBytes.length = places.length ∧
        spliceBytes? p.utf8ByteSize r.toList s.toList 0 (selected count atBytes) = some result.toList := by
  have hp' : p.toList ≠ [] := mt String.toList_eq_nil_iff.1 hp
  obtain ⟨places, hfound⟩ := exists_found hp' 0 s.toList
  have happart : Apart p.toList s.toList places := hfound.apart [] rfl
  have hchosen := happart.sublist (selected_sublist count places)
  have hresult := replaceSubString_eq r.toList hp' hfound count
  refine ⟨places, _, hfound, computes_replaceSubString s p r count, ?_, ?_, fun hmany => ?_,
    _, found_bytes hp' hfound [] rfl, List.length_map .., ?_⟩
  · rw [String.toList_ofList, hresult, String.length_toList]
  · rintro rfl
    rw [hresult, spliceFrom_self hchosen fun _ _ => Nat.zero_le _, List.drop_zero, String.ofList_toList]
  · have hall := computes_replaceSubString s p r 0
    rw [replaceSubString_eq r.toList hp' hfound 0] at hall
    rw [hresult, selected_of_length_le hmany]
    exact hall
  · rw [String.toList_ofList, hresult, utf8ByteSize_eq, selected_map]
    exact spliceBytes?_eq_some r.toList hchosen fun _ _ => Nat.zero_le _

/-- Three characters in a row have the pattern in them once, and the last occurrence is replaced. -/
theorem replaced_where_found_snow : "☃☃" ≠ "" ∧ Found "☃☃".toList 0 "☃☃☃a☃☃".toList [0, 4] ∧
    Computes "llReplaceSubString" [.string "☃☃☃a☃☃", .string "☃☃", .string "x", .integer (-1)]
      (.string "☃☃☃ax") := by
  have hplaces : Found "☃☃".toList 0 "☃☃☃a☃☃".toList [0, 4] :=
    .here (.there (by decide) (.there (by decide) (.here .nil)))
  obtain ⟨places, result, hfound, hcomputes, hresult, -⟩ :=
    replaced_where_found "☃☃☃a☃☃" "☃☃" "x" (by decide) (-1)
  obtain rfl := hfound.unique (by decide) hplaces
  have hsame : result = "☃☃☃ax" := String.toList_inj.1 (hresult.trans (by decide))
  exact ⟨by decide, hplaces, hsame ▸ hcomputes⟩

def stringValues (texts : List String) : List Value := texts.map .string

theorem textsOf_stringValues (texts : List String) : textsOf (stringValues texts) = texts.map String.toList := by
  rw [textsOf, stringValues, List.map_map]
  rfl

theorem computes_dumpList2String (vs : List Value) (sep : String) :
    Computes "llDumpList2String" [.list vs, .string sep]
      (.string (String.ofList (joinWith sep.toList (textsOf vs)))) :=
  ⟨_, by rfl, fun _ _ => rfl⟩

theorem computes_parseString2List (s : String) (separators spacers : List Value) :
    Computes "llParseString2List" [.string s, .list separators, .list spacers]
      (.list (stringValues ((someTokens (textsOf separators) (textsOf spacers) s.toList).map String.ofList))) :=
  ⟨_, by rfl, fun _ _ => by rw [stringValues, List.map_map]; rfl⟩

theorem computes_parseStringKeepNulls (s : String) (separators spacers : List Value) :
    Computes "llParseStringKeepNulls" [.string s, .list separators, .list spacers]
      (.list (stringValues ((tokens (textsOf separators) (textsOf spacers) s.toList).map String.ofList))) :=
  ⟨_, by rfl, fun _ _ => by rw [stringValues, List.map_map]; rfl⟩

theorem map_toList_map_ofList (texts : List (List Char)) : (texts.map String.ofList).map String.toList = texts := by
  simp [Function.comp_def]

theorem join_map_ofList (texts : List (List Char)) :
    String.join (texts.map String.ofList) = String.ofList texts.flatten := by
  apply String.toList_inj.1
  rw [String.toList_join, String.toList_ofList, List.flatMap_def, map_toList_map_ofList]

/-- Splitting loses nothing.  The tokens between the occurrences of a separator are joined by it again; those
around spacers, with the spacers, make up the text, with or without the empty ones.  And splitting ends with what
it gives, whatever the separators and the spacers are. -/
theorem splitting_lossless :
    (∀ s sep : String, ∃ found : List String,
      Computes "llParseStringKeepNulls" [.string s, .list [.string sep], .list []]
        (.list (stringValues found)) ∧
      Computes "llDumpList2String" [.list (stringValues found), .string sep] (.string s)) ∧
    (∀ (s : String) (spacers : List Value), ∃ some all : List String,
      Computes "llParseString2List" [.string s, .list [], .list spacers] (.list (stringValues some)) ∧
      Computes "llParseStringKeepNulls" [.string s, .list [], .list spacers] (.list (stringValues all)) ∧
      String.join some = s ∧ String.join all = s) ∧
    ∀ (s : String) (separators spacers : List Value), ∃ found : List (List Char),
      Turn.Ends (Splitting.turn (textsOf separators) (textsOf spacers)) (Splitting.start s.toList) found ∧
      Computes "llParseStringKeepNulls" [.string s, .list separators, .list spacers]
        (.list (stringValues (found.map String.ofList))) ∧
      Computes "llParseString2List" [.string s, .list separators, .list spacers]
        (.list (stringValues ((found.filter (· ≠ [])).map String.ofList))) := by
  refine ⟨fun s sep => ⟨_, computes_parseStringKeepNulls s _ _, ?_⟩, fun s spacers =>
    ⟨_, _, computes_parseString2List s _ _, computes_parseStringKeepNulls s _ _, ?_, ?_⟩,
    fun s separators spacers => ⟨_, ends_tokens _ _ _, computes_parseStringKeepNulls s _ _,
      computes_parseString2List s _ _⟩⟩
  · have hjoined := computes_dumpList2String
      (stringValues ((tokens [sep.toList] [] s.toList).map String.ofList)) sep
    rw [textsOf_stringValues, map_toList_map_ofList, joinWith_tokens, String.ofList_toList] at hjoined
    exact hjoined
  · exact (join_map_ofList _).trans ((congrArg _ (flatten_someTokens _ _)).trans String.ofList_toList)
  · exact (join_map_ofList _).trans ((congrArg _ (flatten_tokens _ _)).trans String.ofList_toList)

theorem computes_list2CSV (vs : List Value) :
    Computes "llList2CSV" [.list vs] (.string (String.ofList (joinWith [',', ' '] (textsOf vs)))) :=
  ⟨_, by rfl, fun _ _ => rfl⟩

theorem computes_csv2List (csv : String) :
    Computes "llCSV2List" [.string csv] (.list (stringValues ((fields csv.toList).map String.ofList))) :=
  ⟨_, by rfl, fun _ _ => by rw [stringValues, List.map_map]; rfl⟩

theorem stringValues_textsOf (vs : List Value) :
    stringValues ((textsOf vs).map String.ofList) = vs.map fun v => .string v.text := by
  rw [stringValues, textsOf, List.map_map, List.map_map]
  rfl

theorem textsOf_ne {vs : List Value} (h : ∀ v ∈ vs, v.FillsField) (hne : vs ≠ [.string ""]) :
    textsOf vs ≠ [[]] := by
  intro heq
  obtain ⟨v, rfl, hv⟩ := List.map_eq_singleton_iff.1 heq
  exact (h v (.head _)).chars_ne_nil (fun hempty => hne (by rw [hempty])) hv

/-- Values that are written as one field each are read again as their texts, one for each. -/
theorem csv_read_back (vs : List Value) (hvs : vs ≠ []) (h : ∀ v ∈ vs, v.FillsField)
    (hne : vs ≠ [.string ""]) : ∃ csv : String,
      Computes "llList2CSV" [.list vs] (.string csv) ∧
      Computes "llCSV2List" [.string csv] (.list (vs.map fun v => .string v.text)) := by
  refine ⟨_, computes_list2CSV vs, ?_⟩
  have hread := computes_csv2List (String.ofList (joinWith [',', ' '] (textsOf vs)))
  have hfields : ∀ p ∈ textsOf vs, IsField p := fun p hp => by
    obtain ⟨v, hv, rfl⟩ := List.mem_map.1 hp
    exact (h v hv).isField
  have hpieces : textsOf vs ≠ [] := mt List.map_eq_nil_iff.1 hvs
  rw [String.toList_ofList, fields_joinWith hpieces hfields (textsOf_ne h hne),
    stringValues_textsOf] at hread
  exact hread

def mixed : List Value :=
  [.integer (-3), .string "", .vector ⟨0, 0, 0⟩, .string "a b", .key Key.null]

theorem csv_read_back_mixed : mixed ≠ [] ∧ (∀ v ∈ mixed, v.FillsField) ∧ mixed ≠ [.string ""] ∧
    Computes "llCSV2List"
      [.string "-3, , <0.00000, 0.00000, 0.00000>, a b, 00000000-0000-0000-0000-000000000000"]
      (.list (stringValues ["-3", "", "<0.00000, 0.00000, 0.00000>", "a b", Key.null])) := by
  have hfills : ∀ v ∈ mixed, v.FillsField := by decide +kernel
  have htexts : textsOf mixed =
      ["-3", "", "<0.00000, 0.00000, 0.00000>", "a b", Key.null].map String.toList := by decide +kernel
  refine ⟨nofun, hfills, nofun, ?_⟩
  obtain ⟨csv, hwritten, hread⟩ := csv_read_back mixed nofun hfills nofun
  rw [Value.string.inj (hwritten.unique (computes_list2CSV mixed)), ← stringValues_textsOf, htexts] at hread
  exact hread

theorem computes_escapeURL (s : String) :
    Computes "llEscapeURL" [.string s] (.string (String.ofList (escape s.toList))) :=
  ⟨_, by rfl, fun _ _ => rfl⟩

theorem computes_unescapeURL (s : String) :
    Computes "llUnescapeURL" [.string s] (.string (String.ofList (unescape s.toList))) :=
  ⟨_, by rfl, fun _ _ => rfl⟩

/-- An escaped text has only letters, digits and percent signs of ASCII in it, and is the text again when it is
unescaped.  And unescaping ends, without reading beyond the end of the bytes, with those of the text it gives. -/
theorem escape_undone (s : String) :
    (∃ escaped : String, Computes "llEscapeURL" [.string s] (.string escaped) ∧
      (∀ c ∈ escaped.toList, c.isAlphanum = true ∨ c = '%') ∧
      Computes "llUnescapeURL" [.string escaped] (.string s)) ∧
    ∃ out : List Nat,
      Turn.Ends (Unescaping.turn (bytes s.toList)) Unescaping.start out ∧
      Computes "llUnescapeURL" [.string s] (.string (String.ofList (decode out))) := by
  refine ⟨⟨_, computes_escapeURL s, fun c hc => ?_, ?_⟩,
    _, Unescaping.ends_unescapeBytes _, computes_unescapeURL s⟩
  · rw [String.toList_ofList] at hc
    exact (Bool.or_eq_true_iff.1 (isEscapeChar_of_mem_escape hc)).imp_right beq_iff_eq.1
  · have hback := computes_unescapeURL (String.ofList (escape s.toList))
    rwa [String.toList_ofList, unescape_escape, String.ofList_toList] at hback

end PrimScript.Library
