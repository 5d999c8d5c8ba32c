import PrimScript.Library.Catalog
import PrimScript.Proofs.Slice.Strided
import PrimScript.Proofs.Value.Sorted

/-! Functions of the library that compute a value.  A script calls them by their names, and what it gets is the
value, in whatever world it runs.  A sorted list has the blocks of the list, those with equal first values as
they stood; and every so many items of a range are those of the range at the multiples of the stride, unless the
range lies beyond the list or before it, where it is not left empty. -/

namespace PrimScript.Library

open LibraryFunction Value Slice

/-- Called with the arguments, the function of the name gives the value, and leaves the world as it is. -/
def Computes (name : String) (args : List Value) (v : Value) : Prop :=
  ∃ f, find? name = some f ∧ ∀ detected w, f.run ⟨name, args, detected⟩ w = (.value v, w)

theorem Computes.unique {name : String} {args : List Value} {v v' : Value} (h : Computes name args v)
    (h' : Computes name args v') : v = v' := by
  obtain ⟨f, hf, hrun⟩ := h
  obtain ⟨f', hf', hrun'⟩ := h'
  obtain rfl := Option.some.inj (hf.symm.trans hf')
  have hboth := (hrun [] (.ofSettings .default (.plain []))).symm.trans (hrun' [] _)
  exact Reply.value.inj (congrArg Prod.fst hboth)

theorem computes_listSort (vs : List Value) (stride direction : Int32) :
    Computes "llListSort" [.list vs, .integer stride, .integer direction]
      (.list (Value.sortBlocks vs stride (direction != 0))) :=
  ⟨_, by rfl, fun _ _ => rfl⟩

theorem computes_list2List (vs : List Value) (first last : Int32) :
    Computes "llList2List" [.list vs, .integer first, .integer last] (.list (Slice.keep vs first last)) :=
  ⟨_, by rfl, fun _ _ => rfl⟩

theorem computes_list2ListStrided (vs : List Value) (first last stride : Int32) :
    Computes "llList2ListStrided" [.list vs, .integer first, .integer last, .integer stride]
      (.list (Slice.keepEvery vs first last stride)) :=
  ⟨_, by rfl, fun _ _ => rfl⟩

theorem computes_formatString (format : String) (vs : List Value) :
    Computes "osFormatString" [.string format, .list vs]
      (.string (String.ofList (formatFrom 0 (vs.map Value.chars) format.toList))) :=
  ⟨_, by rfl, fun _ _ => rfl⟩

/-- A list that is not of whole blocks stays as it is, and another one keeps its blocks, in another order.  When
the blocks begin with integers, or with texts, they are put in the order of these, or in the reverse order, and
those that begin with the same one stay in the order they had. -/
theorem listSort_sorts (vs : List Value) (stride direction : Int32) :
    ∃ result, Computes "llListSort" [.list vs, .integer stride, .integer direction] (.list result) ∧
      (¬ blockSize stride ∣ vs.length → result = vs) ∧
      (blockSize stride ∣ vs.length → ∃ before after : List (List Value),
        (∀ block ∈ before, block.length = blockSize stride) ∧ before.flatten = vs ∧
        after.Perm before ∧ after.flatten = result ∧
        ((∀ block ∈ before, BeginsWithInteger block) →
          StablySorted headInteger (direction != 0) before after) ∧
        ((∀ block ∈ before, BeginsWithText block) →
          StablySorted headText (direction != 0) before after)) := by
  refine ⟨_, computes_listSort vs stride direction, sortBlocks_of_not_dvd _, fun h => ?_⟩
  refine ⟨blocks (blockSize stride) vs.length vs, _, length_of_mem_blocks _ _ h,
    flatten_blocks (blockSize_pos stride) _ _ (Nat.le_refl _), sorted_perm (direction != 0) _,
    (sortBlocks_of_dvd _ h).symm, fun hall => ?_, fun hall => ?_⟩
  · exact stablySorted_sorted _ fun a ha b hb => compareBlocks_integers (hall a ha) (hall b hb)
  · exact stablySorted_sorted _ fun a ha b hb => compareBlocks_texts (hall a ha) (hall b hb)

/-- Blocks with the same text stay in their order also when the greater texts go first. -/
example : sortBlocks [.string "a", .integer 1, .key "b", .integer 2, .string "b", .integer 3] 2 false =
    [.key "b", .integer 2, .string "b", .integer 3, .string "a", .integer 1] := rfl

/-- Every so many items of a range that does not end before it begins are the items of the range at the
multiples of the stride exactly when the range meets the list, or there is nothing in the list.  They are those
of the whole list when the range lies beyond it, and the first item when the range lies before it. -/
theorem strided_iff (vs : List Value) (first last stride : Int32) (hstride : 1 ≤ stride)
    (hle : place vs.length first ≤ place vs.length last) :
    ∃ plain strided,
      Computes "llList2List" [.list vs, .integer first, .integer last] (.list plain) ∧
      Computes "llList2ListStrided" [.list vs, .integer first, .integer last, .integer stride]
        (.list strided) ∧
      ((∀ j, strided[j]? = plain[stride.toInt.toNat * j]?) ↔
        vs = [] ∨ (place vs.length first < vs.length ∧ 0 ≤ place vs.length last)) ∧
      (vs.length ≤ place vs.length first → ∀ j, strided[j]? = vs[stride.toInt.toNat * j]?) ∧
      (place vs.length last < 0 → strided = vs.take 1) :=
  ⟨_, _, computes_list2List vs first last, computes_list2ListStrided vs first last stride,
    getElem?_keepEvery_iff hstride hle, fun h => getElem?_keepEvery_beyond hstride h hle,
    fun h => keepEvery_before hstride h hle⟩

def three : List Value := [.integer 0, .integer 1, .integer 2]

/-- A range that begins with the last item but one and ends behind the list. -/
theorem strided_iff_three : 1 ≤ (2 : Int32) ∧ place three.length (-2) ≤ place three.length 7 ∧
    ∃ plain strided,
      Computes "llList2List" [.list three, .integer (-2), .integer 7] (.list plain) ∧
      Computes "llList2ListStrided" [.list three, .integer (-2), .integer 7, .integer 2]
        (.list strided) ∧ ∀ j, strided[j]? = plain[2 * j]? := by
  refine ⟨by decide, by decide, ?_⟩
  obtain ⟨plain, strided, hplain, hstrided, hiff, -, -⟩ :=
    strided_iff three (-2) 7 2 (by decide) (by decide)
  exact ⟨plain, strided, hplain, hstrided, hiff.2 (.inr (by decide))⟩

/-- A range beyond the list has no items, but every item of it is taken all the same. -/
theorem strided_beyond :
    ¬ ∀ (vs plain strided : List Value) (first last stride : Int32), 1 ≤ stride →
      place vs.length first ≤ place vs.length last →
      Computes "llList2List" [.list vs, .integer first, .integer last] (.list plain) →
      Computes "llList2ListStrided" [.list vs, .integer first, .integer last, .integer stride]
        (.list strided) →
      ∀ j, strided[j]? = plain[stride.toInt.toNat * j]? := by
  intro h
  have hfirst := h three [] three 5 7 1 (by decide) (by decide) (computes_list2List three 5 7)
    (computes_list2ListStrided three 5 7 1) 0
  simp [three] at hfirst

end PrimScript.Library
