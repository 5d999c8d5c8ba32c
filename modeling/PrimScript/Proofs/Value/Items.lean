import PrimScript.Slice
import PrimScript.Value.Sort

/-! Functions that rearrange lists put nothing into them. -/

namespace PrimScript

namespace Slice

variable {α : Type}

theorem filterPlaces_subset (p : Nat → Bool) (xs : List α) : filterPlaces p xs ⊆ xs := by
  intro x hx
  obtain ⟨⟨y, i⟩, hy, rfl⟩ := List.mem_map.1 hx
  rw [(List.mem_zipIdx (List.mem_filter.1 hy).1).2.2]
  exact List.getElem_mem _

theorem keep_subset (xs : List α) (first last : Int32) : keep xs first last ⊆ xs :=
  filterPlaces_subset _ xs

theorem drop_subset (xs : List α) (first last : Int32) : drop xs first last ⊆ xs := by
  rw [drop]
  exact filterPlaces_subset _ xs

theorem keepEvery_subset (xs : List α) (first last stride : Int32) :
    keepEvery xs first last stride ⊆ xs := by
  rw [keepEvery]
  exact filterPlaces_subset _ xs

theorem insert_subset (xs ys : List α) (i : Int32) : insert xs ys i ⊆ xs ++ ys := by
  intro x hx
  simp only [insert, List.mem_append] at hx ⊢
  obtain (hx | hx) | hx := hx
  · exact .inl (List.mem_of_mem_take hx)
  · exact .inr hx
  · exact .inl (List.mem_of_mem_drop hx)

theorem replace_subset (xs ys : List α) (first last : Int32) :
    replace xs ys first last ⊆ xs ++ ys := by
  intro x hx
  rw [replace] at hx
  split at hx
  · simp only [List.mem_append] at hx ⊢
    obtain (hx | hx) | hx := hx
    · exact .inl (List.mem_of_mem_take hx)
    · exact .inr hx
    · exact .inl (List.mem_of_mem_drop hx)
  · simp only [List.mem_append] at hx ⊢
    obtain hx | hx := hx
    · exact .inl (List.mem_of_mem_take (List.mem_of_mem_drop hx))
    · exact .inr hx

end Slice

namespace Value

theorem mem_flatten_insertBlock {ascending : Bool} {x : Value} {block : List Value} :
    {sorted : List (List Value)} → x ∈ (insertBlock ascending block sorted).flatten →
      x ∈ block ∨ x ∈ sorted.flatten
  | [], hx => by simpa [insertBlock] using hx
  | last :: sorted, hx => by
    rw [insertBlock] at hx
    split at hx
    · rw [List.flatten_cons, List.mem_append] at hx ⊢
      obtain hx | hx := hx
      · exact .inr (.inl hx)
      · exact (mem_flatten_insertBlock hx).imp id .inr
    · simpa using hx

theorem mem_flatten_blocks {size : Nat} {x : Value} :
    {count : Nat} → {vs : List Value} → x ∈ (blocks size count vs).flatten → x ∈ vs
  | 0, _, hx => by simp [blocks] at hx
  | _ + 1, [], hx => by simp [blocks] at hx
  | count + 1, v :: vs, hx => by
    rw [blocks, List.flatten_cons, List.mem_append] at hx
    obtain hx | hx := hx
    · exact List.mem_of_mem_take hx
    · exact List.mem_of_mem_drop (mem_flatten_blocks hx)

theorem mem_flatten_foldl_insertBlock {ascending : Bool} {x : Value}
    {bs sorted : List (List Value)}
    (hx : x ∈ (bs.foldl (fun sorted b => insertBlock ascending b sorted) sorted).flatten) :
    x ∈ bs.flatten ∨ x ∈ sorted.flatten := by
  induction bs generalizing sorted with
  | nil => exact .inr hx
  | cons b bs ih =>
    rw [List.flatten_cons, List.mem_append]
    obtain hx | hx := ih hx
    · exact .inl (.inr hx)
    · exact (mem_flatten_insertBlock hx).imp .inl id

theorem sortBlocks_subset (vs : List Value) (stride : Int32) (ascending : Bool) :
    sortBlocks vs stride ascending ⊆ vs := by
  intro x hx
  unfold sortBlocks at hx
  extract_lets size sorted at hx
  split at hx
  · exact hx
  · obtain ⟨b, hb, hx⟩ := List.mem_flatten.1 hx
    have hf := List.mem_flatten.2 ⟨b, List.mem_reverse.1 hb, hx⟩
    obtain hx | hx := mem_flatten_foldl_insertBlock hf
    · exact mem_flatten_blocks hx
    · cases hx

end Value

end PrimScript
