import PrimScript.Proofs.Slice.Ranges
import PrimScript.Text.Search

/-! Occurrences of a text in another one.  Cutting and replacing go from the left: a text that begins with the
pattern is left behind it, and any other one behind its first character.  When the pattern does not begin again
within itself, all places where it occurs are found.  Those that are found lie apart, so that some of them can be
replaced and the rest left as it is. -/

namespace PrimScript.Text

theorem isSome_dropPrefix?_iff (p cs : List Char) : (dropPrefix? p cs).isSome ↔ p.IsPrefix cs := by
  rw [Option.isSome_iff_exists]
  constructor
  · rintro ⟨rest, h⟩
    exact ⟨rest, (eq_append_of_dropPrefix? h).symm⟩
  · rintro ⟨rest, rfl⟩
    exact ⟨rest, dropPrefix?_append p rest⟩

theorem isSome_indexOf?_iff (p cs : List Char) : (indexOf? p cs).isSome ↔ p.IsInfix cs := by
  induction cs with
  | nil =>
    rw [indexOf?, List.infix_nil]
    split <;> simp [*]
  | cons c cs ih =>
    rw [indexOf?, List.infix_cons_iff, ← isSome_dropPrefix?_iff]
    split
    · next h => simp [h]
    · next h => simp [h, ih]

@[elab_as_elim]
theorem scan_induction (IsPattern : List Char → Prop) (hne : ∀ p, IsPattern p → p ≠ [])
    {motive : List Char → Prop} (nil : motive [])
    (found : ∀ p cs, IsPattern p → motive cs → motive (p ++ cs))
    (char : ∀ c cs, (∀ p, IsPattern p → ¬ p.IsPrefix (c :: cs)) → motive cs → motive (c :: cs))
    (cs : List Char) : motive cs := by
  induction h : cs.length using Nat.strongRecOn generalizing cs with
  | ind n ih =>
    cases cs with
    | nil => exact nil
    | cons c cs =>
      by_cases hfound : ∃ p, IsPattern p ∧ p.IsPrefix (c :: cs)
      · obtain ⟨p, hp, rest, heq⟩ := hfound
        have hpos := List.length_pos_iff.2 (hne p hp)
        have hlength := congrArg List.length heq
        rw [List.length_append] at hlength
        rw [← heq]
        exact found p rest hp (ih _ (by omega) rest rfl)
      · refine char c cs (fun p hp hprefix => hfound ⟨p, hp, hprefix⟩) (ih _ ?_ cs rfl)
        rw [← h, List.length_cons]
        exact Nat.lt_succ_self _

section Replace

variable {p : List Char} {c : Char} {cs : List Char} (r : List Char)

theorem cutAt_length_append (p xs cs : List Char) : cutAt p xs.length (xs ++ cs) = cutAt p 0 cs := by
  induction xs with
  | nil => rfl
  | cons x xs ih => rw [List.length_cons, List.cons_append, cutAt, ih]

theorem cutAt_append (hp : p ≠ []) (cs : List Char) :
    cutAt p 0 (p ++ cs) = ([], (cutAt p 0 cs).1 :: (cutAt p 0 cs).2) := by
  cases p with
  | nil => exact absurd rfl hp
  | cons c q =>
    have h : (dropPrefix? (c :: q) (c :: (q ++ cs))).isSome = true :=
      (isSome_dropPrefix?_iff _ _).2 ⟨cs, rfl⟩
    rw [List.cons_append, cutAt, if_pos h, List.length_cons, Nat.add_sub_cancel, cutAt_length_append]

theorem cutAt_cons (h : ¬ p.IsPrefix (c :: cs)) :
    cutAt p 0 (c :: cs) = (c :: (cutAt p 0 cs).1, (cutAt p 0 cs).2) := by
  rw [cutAt, if_neg (mt (isSome_dropPrefix?_iff _ _).1 h)]

theorem joinWith_cons_cons (c : Char) (piece : List Char) (pieces : List (List Char)) :
    joinWith r ((c :: piece) :: pieces) = c :: joinWith r (piece :: pieces) := by
  cases pieces <;> rfl

theorem replaceAll_eq (hp : p ≠ []) (cs : List Char) :
    replaceAll p r cs = joinWith r ((cutAt p 0 cs).1 :: (cutAt p 0 cs).2) := if_neg hp

theorem replaceAll_nil (hp : p ≠ []) : replaceAll p r [] = [] := by
  rw [replaceAll_eq r hp]
  rfl

theorem replaceAll_append (hp : p ≠ []) (cs : List Char) :
    replaceAll p r (p ++ cs) = r ++ replaceAll p r cs := by
  rw [replaceAll_eq r hp, replaceAll_eq r hp, cutAt_append hp]
  rfl

theorem replaceAll_cons (hp : p ≠ []) (h : ¬ p.IsPrefix (c :: cs)) :
    replaceAll p r (c :: cs) = c :: replaceAll p r cs := by
  rw [replaceAll_eq r hp, replaceAll_eq r hp, cutAt_cons h, joinWith_cons_cons]

end Replace

section Places

open Slice

variable {α : Type} {p r xs ys : List α} {places : List Nat} {i last : Nat}

/-- The places where a list is found in another one that begins at some place, from the left.  Behind one that is
found the search goes on, and behind the first item where none is. -/
inductive Found (p : List α) : (start : Nat) → List α → List Nat → Prop
  | nil {i : Nat} : Found p i [] []
  | here {i : Nat} {xs : List α} {places : List Nat} (more : Found p (i + p.length) xs places) :
    Found p i (p ++ xs) (i :: places)
  | there {i : Nat} {x : α} {xs : List α} {places : List Nat} (hnot : ¬ p.IsPrefix (x :: xs))
    (more : Found p (i + 1) xs places) : Found p i (x :: xs) places

/-- The places lie apart, and at each of them there is the pattern. -/
structure Apart (p xs : List α) (places : List Nat) : Prop where
  stands : ∀ i ∈ places, p.IsPrefix (xs.drop i)
  pairwise : places.Pairwise fun i j => i + p.length ≤ j

def spliceFrom (width : Nat) (r xs : List α) : (last : Nat) → (places : List Nat) → List α
  | last, [] => xs.drop last
  | last, i :: places => stretch xs last i ++ (r ++ spliceFrom width r xs (i + width) places)

namespace Found

theorem append_inv (hp : p ≠ []) (h : Found p i (p ++ xs) places) :
    ∃ more, places = i :: more ∧ Found p (i + p.length) xs more := by
  generalize hys : p ++ xs = ys at h
  cases h with
  | nil => exact absurd (List.append_eq_nil_iff.1 hys).1 hp
  | here more => exact ⟨_, rfl, List.append_cancel_left hys ▸ more⟩
  | there hnot => exact absurd ⟨xs, hys⟩ hnot

theorem cons_inv {x : α} (hnot : ¬ p.IsPrefix (x :: xs)) (h : Found p i (x :: xs) places) :
    Found p (i + 1) xs places := by
  generalize hys : x :: xs = ys at h
  cases h with
  | nil => cases hys
  | here => exact absurd ⟨_, hys.symm⟩ hnot
  | there _ more =>
    cases hys
    exact more

theorem unique (hp : p ≠ []) {places' : List Nat} (h : Found p i xs places) (h' : Found p i xs places') :
    places = places' := by
  induction h generalizing places' with
  | nil =>
    generalize hys : ([] : List α) = ys at h'
    cases h' with
    | nil => rfl
    | here => exact absurd (List.append_eq_nil_iff.1 hys.symm).1 hp
    | there => cases hys
  | here _ ih =>
    obtain ⟨more', rfl, hmore'⟩ := h'.append_inv hp
    rw [ih hmore']
  | there hnot _ ih => exact ih (h'.cons_inv hnot)

theorem le_of_mem (h : Found p i xs places) : ∀ m ∈ places, i ≤ m := by
  induction h with
  | nil => exact nofun
  | here _ ih => exact List.forall_mem_cons.2 ⟨Nat.le_refl _, fun m hm =>
      Nat.le_trans (Nat.le_add_right _ _) (ih m hm)⟩
  | there _ _ ih => exact fun m hm => Nat.le_of_succ_le (ih m hm)

theorem apart (h : Found p i xs places) : ∀ before : List α, before.length = i → Apart p (before ++ xs) places := by
  induction h with
  | nil => exact fun _ _ => ⟨nofun, .nil⟩
  | @here i xs places more ih =>
    intro before hlength
    obtain ⟨hstands, hpairwise⟩ := ih (before ++ p) (by rw [List.length_append, hlength])
    rw [List.append_assoc] at hstands
    refine ⟨List.forall_mem_cons.2 ⟨?_, hstands⟩, List.pairwise_cons.2 ⟨more.le_of_mem, hpairwise⟩⟩
    rw [List.drop_left' hlength]
    exact List.prefix_append p xs
  | @there i x xs places _ _ ih =>
    intro before hlength
    have hrest := ih (before ++ [x]) (by rw [List.length_append, hlength]; rfl)
    rwa [List.append_assoc] at hrest

end Found

theorem found_append (hnot : ∀ j < xs.length, ¬ p.IsPrefix ((xs ++ ys).drop j))
    (more : Found p (i + xs.length) ys places) : Found p i (xs ++ ys) places := by
  induction xs generalizing i with
  | nil => exact more
  | cons x xs ih =>
    refine .there (hnot 0 (Nat.succ_pos _)) (ih (fun j hj => hnot (j + 1) (Nat.succ_lt_succ hj)) ?_)
    rwa [Nat.add_assoc, Nat.add_comm 1]

theorem exists_found {p : List Char} (hp : p ≠ []) (i : Nat) (cs : List Char) : ∃ places, Found p i cs places := by
  induction cs using scan_induction (· = p) (fun _ h => h ▸ hp) generalizing i with
  | nil => exact ⟨[], .nil⟩
  | found q cs hq ih =>
    subst hq
    obtain ⟨places, h⟩ := ih (i + q.length)
    exact ⟨i :: places, .here h⟩
  | char c cs hnot ih =>
    obtain ⟨places, h⟩ := ih (i + 1)
    exact ⟨places, .there (hnot p rfl) h⟩

theorem Apart.sublist {some : List Nat} (h : Apart p xs places) (hsub : some.Sublist places) : Apart p xs some :=
  ⟨fun i hi => h.stands i (hsub.subset hi), h.pairwise.sublist hsub⟩

theorem spliceFrom_self (h : Apart p xs places) (hlast : ∀ i ∈ places, last ≤ i) :
    spliceFrom p.length p xs last places = xs.drop last := by
  induction places generalizing last with
  | nil => rfl
  | cons i places ih =>
    have hbehind := ih (h.sublist (List.sublist_cons_self i places)) (List.pairwise_cons.1 h.pairwise).1
    obtain ⟨rest, hrest⟩ := h.stands i (.head _)
    have hdrop : xs.drop (i + p.length) = rest := by
      rw [← List.drop_drop, ← hrest, List.drop_left]
    rw [spliceFrom, hbehind, hdrop, hrest, stretch_append_drop xs (hlast i (.head _))]

end Places

def occurrences (p : List Char) : List Char → Nat
  | [] => 0
  | c :: cs => (if p.isPrefixOf (c :: cs) then 1 else 0) + occurrences p cs

section Count

variable {p : List Char} {c : Char} {cs : List Char}

theorem occurrences_cons_of_not (h : ¬ p.IsPrefix (c :: cs)) :
    occurrences p (c :: cs) = occurrences p cs := by
  rw [occurrences, if_neg (mt List.isPrefixOf_iff_prefix.1 h), Nat.zero_add]

theorem occurrences_cons_of_isPrefix (h : p.IsPrefix (c :: cs)) :
    occurrences p (c :: cs) = occurrences p cs + 1 := by
  rw [occurrences, if_pos (List.isPrefixOf_iff_prefix.2 h), Nat.add_comm]

theorem occurrences_le_append (p xs cs : List Char) : occurrences p cs ≤ occurrences p (xs ++ cs) := by
  induction xs with
  | nil => exact Nat.le_refl _
  | cons x xs ih => exact Nat.le_trans ih (Nat.le_add_left _ _)

theorem replaceAll_append_of_occurrences (hp : p ≠ []) (r xs : List Char)
    (h : occurrences p (xs ++ cs) = occurrences p cs) :
    replaceAll p r (xs ++ cs) = xs ++ replaceAll p r cs := by
  induction xs with
  | nil => rfl
  | cons x xs ih =>
    rw [List.cons_append] at h ⊢
    have hle := occurrences_le_append p xs cs
    have hnot : ¬ p.IsPrefix (x :: (xs ++ cs)) := by
      intro hprefix
      rw [occurrences_cons_of_isPrefix hprefix] at h
      omega
    rw [occurrences_cons_of_not hnot] at h
    rw [replaceAll_cons r hp hnot, ih h, List.cons_append]

variable {q xs : List Char}

theorem occurrences_append_of_notMem (h : c ∉ xs) (cs : List Char) :
    occurrences (c :: q) (xs ++ cs) = occurrences (c :: q) cs := by
  induction xs with
  | nil => rfl
  | cons x xs ih =>
    rw [List.mem_cons, not_or] at h
    have hnot : ¬ (c :: q).IsPrefix (x :: (xs ++ cs)) := fun hprefix =>
      h.1 (List.cons_prefix_cons.1 hprefix).1
    rw [List.cons_append, occurrences_cons_of_not hnot, ih h.2]

theorem occurrences_append_self (h : c ∉ q) (cs : List Char) :
    occurrences (c :: q) (c :: q ++ cs) = occurrences (c :: q) cs + 1 := by
  rw [List.cons_append, occurrences_cons_of_isPrefix ⟨cs, rfl⟩, occurrences_append_of_notMem h]

/-- Every occurrence is replaced: each adds the replacement's length and takes the pattern's away. -/
theorem length_replaceAll (h : c ∉ q) (r cs : List Char) :
    (replaceAll (c :: q) r cs).length + occurrences (c :: q) cs * (c :: q).length =
      cs.length + occurrences (c :: q) cs * r.length := by
  have hne : c :: q ≠ [] := List.cons_ne_nil c q
  induction cs using scan_induction (· = c :: q) (fun p hp => hp ▸ hne) with
  | nil => rw [replaceAll_nil r hne, occurrences, Nat.zero_mul, Nat.zero_mul]
  | found p cs hp ih =>
    subst hp
    rw [replaceAll_append r hne, occurrences_append_self h, List.length_append, List.length_append,
      Nat.succ_mul, Nat.succ_mul]
    omega
  | char x cs hnot ih =>
    rw [replaceAll_cons r hne (hnot _ rfl), occurrences_cons_of_not (hnot _ rfl)]
    simp only [List.length_cons] at ih ⊢
    omega

end Count

end PrimScript.Text
