import Mathlib.Data.List.GetD
import Mathlib.Data.List.Induction
import PrimScript.Proofs.Json.Number
import PrimScript.Proofs.Library.Computes
import PrimScript.Proofs.Text.Search

/-! Formats.  The placeholders of a format are replaced one argument after the other, each in the text that the
arguments before it have left.  That is replacing all of them at once as long as no text put in makes a new
placeholder, by itself or together with what stands around it; and the first one that does is replaced as if it
were one of the format. -/

namespace PrimScript.Library

open Decimal Text

def placeholderTail (i : Nat) : List Char := Nat.toDigits 10 i ++ ['\x7d']

theorem placeholder_eq (i : Nat) : placeholder i = '\x7b' :: placeholderTail i := rfl

theorem placeholder_ne_nil (i : Nat) : placeholder i ≠ [] := List.cons_ne_nil _ _

theorem notMem_toDigits {c : Char} (h : isDigit c = false) (i : Nat) : c ∉ Nat.toDigits 10 i := fun hc => by
  have hdigit := isDigit_of_mem_toDigits hc
  rw [h] at hdigit
  exact Bool.false_ne_true hdigit

theorem notMem_placeholderTail (i : Nat) : '\x7b' ∉ placeholderTail i := by
  rw [placeholderTail, List.mem_append, not_or]
  exact ⟨notMem_toDigits (by decide) i, by decide⟩

theorem takeWhile_ne_append {c : Char} {xs : List Char} (h : c ∉ xs) (rest : List Char) :
    (xs ++ c :: rest).takeWhile (· ≠ c) = xs := by
  rw [List.takeWhile_append_of_pos fun x hx => decide_eq_true (ne_of_mem_of_not_mem hx h),
    List.takeWhile_cons, if_neg (by simp), List.append_nil]

theorem not_prefix_of_ne {c : Char} (h : c ≠ '\x7b') (i : Nat) (cs : List Char) :
    ¬ (placeholder i).IsPrefix (c :: cs) := fun hprefix =>
  h (List.cons_prefix_cons.1 hprefix).1.symm

theorem placeholder_inj {i j : Nat} {cs : List Char} (h : (placeholder i).IsPrefix (placeholder j ++ cs)) :
    i = j := by
  obtain ⟨rest, heq⟩ := h
  have hdigits : Nat.toDigits 10 i ++ '\x7d' :: rest = Nat.toDigits 10 j ++ '\x7d' :: cs := by
    simpa [placeholder] using heq
  have hclosing : isDigit '\x7d' = false := by decide
  have hsame := congrArg (List.takeWhile (· ≠ '\x7d')) hdigits
  rw [takeWhile_ne_append (notMem_toDigits hclosing i),
    takeWhile_ne_append (notMem_toDigits hclosing j)] at hsame
  rw [← ofDigits_toDigits i, hsame, ofDigits_toDigits]

theorem format_induction (IsHole : Nat → Prop) {motive : List Char → Prop} (nil : motive [])
    (hole : ∀ i cs, IsHole i → motive cs → motive (placeholder i ++ cs))
    (char : ∀ c cs, (∀ i, IsHole i → ¬ (placeholder i).IsPrefix (c :: cs)) → motive cs →
      motive (c :: cs))
    (cs : List Char) : motive cs := by
  induction cs using scan_induction (fun p => ∃ i, IsHole i ∧ p = placeholder i)
    (fun _ ⟨i, _, hp⟩ => hp ▸ placeholder_ne_nil i) with
  | nil => exact nil
  | found p cs hp ih =>
    obtain ⟨i, hi, rfl⟩ := hp
    exact hole i cs hi ih
  | char c cs hnot ih => exact char c cs (fun i hi => hnot _ ⟨i, hi, rfl⟩) ih

theorem occurrences_hole_self (i : Nat) (cs : List Char) :
    occurrences (placeholder i) (placeholder i ++ cs) = occurrences (placeholder i) cs + 1 :=
  occurrences_append_self (notMem_placeholderTail i) cs

theorem occurrences_hole {i j : Nat} (h : i ≠ j) (cs : List Char) :
    occurrences (placeholder i) (placeholder j ++ cs) = occurrences (placeholder i) cs := by
  have hnot : ¬ (placeholder i).IsPrefix ('\x7b' :: (placeholderTail j ++ cs)) :=
    fun hprefix => h (placeholder_inj hprefix)
  rw [placeholder_eq j, List.cons_append, occurrences_cons_of_not hnot]
  exact occurrences_append_of_notMem (notMem_placeholderTail j) cs

def placeholder? (count : Nat) (cs : List Char) : Option Nat :=
  (List.range count).find? fun i => (placeholder i).isPrefixOf cs

/-- The format with the placeholders of the arguments replaced by their texts, all of them placeholders of the
format.  `skip` counts the characters of a placeholder that are still to be passed over. -/
def fillFrom (args : List (List Char)) : (skip : Nat) → (format : List Char) → List Char
  | _, [] => []
  | skip + 1, _ :: cs => fillFrom args skip cs
  | 0, c :: cs =>
    match placeholder? args.length (c :: cs) with
    | some i => args.getD i [] ++ fillFrom args ((placeholder i).length - 1) cs
    | none => c :: fillFrom args 0 cs

def fill (args : List (List Char)) (format : List Char) : List Char := fillFrom args 0 format

section Fill

variable {args : List (List Char)} {c : Char} {cs : List Char} {i : Nat}

theorem placeholder?_eq_none (h : ∀ i < args.length, ¬ (placeholder i).IsPrefix cs) :
    placeholder? args.length cs = none := by
  refine List.find?_eq_none.2 fun i hi hprefix => ?_
  exact h i (List.mem_range.1 hi) (List.isPrefixOf_iff_prefix.1 hprefix)

theorem placeholder?_hole (h : i < args.length) (cs : List Char) :
    placeholder? args.length (placeholder i ++ cs) = some i := by
  cases hfound : placeholder? args.length (placeholder i ++ cs) with
  | none =>
    have hnot := List.find?_eq_none.1 hfound i (List.mem_range.2 h)
    exact absurd (List.isPrefixOf_iff_prefix.2 ⟨cs, rfl⟩) hnot
  | some j =>
    have hprefix : (placeholder j).isPrefixOf (placeholder i ++ cs) = true := by
      simpa using List.find?_some hfound
    rw [placeholder_inj (List.isPrefixOf_iff_prefix.1 hprefix)]

theorem fillFrom_length_append (args : List (List Char)) (xs cs : List Char) :
    fillFrom args xs.length (xs ++ cs) = fill args cs := by
  induction xs with
  | nil => rfl
  | cons x xs ih => rw [List.length_cons, List.cons_append, fillFrom, ih]

theorem fill_hole (h : i < args.length) (cs : List Char) :
    fill args (placeholder i ++ cs) = args.getD i [] ++ fill args cs := by
  have hfound := placeholder?_hole h cs
  rw [placeholder_eq, List.cons_append] at hfound ⊢
  rw [fill, fillFrom, hfound]
  dsimp only
  rw [placeholder_eq, List.length_cons, Nat.add_sub_cancel, fillFrom_length_append]

theorem fill_empty (args : List (List Char)) : fill args [] = [] := rfl

theorem fill_cons (h : ∀ i < args.length, ¬ (placeholder i).IsPrefix (c :: cs)) :
    fill args (c :: cs) = c :: fill args cs := by
  rw [fill, fillFrom, placeholder?_eq_none h]
  rfl

theorem fill_append_of_notMem {xs : List Char} (h : '\x7b' ∉ xs) (cs : List Char) :
    fill args (xs ++ cs) = xs ++ fill args cs := by
  induction xs with
  | nil => rfl
  | cons x xs ih =>
    rw [List.mem_cons, not_or] at h
    rw [List.cons_append, fill_cons fun i _ => not_prefix_of_ne (Ne.symm h.1) i _, ih h.2,
      List.cons_append]

theorem fill_hole_beyond (h : args.length ≤ i) (cs : List Char) :
    fill args (placeholder i ++ cs) = placeholder i ++ fill args cs := by
  have hnot (j : Nat) (hj : j < args.length) :
      ¬ (placeholder j).IsPrefix ('\x7b' :: (placeholderTail i ++ cs)) := fun hprefix => by
    have := placeholder_inj hprefix
    omega
  rw [placeholder_eq, List.cons_append, fill_cons hnot, fill_append_of_notMem (notMem_placeholderTail i),
    List.cons_append]

theorem fill_nil (format : List Char) : fill [] format = format := by
  induction format with
  | nil => rfl
  | cons c cs ih => rw [fill_cons (fun _ h => absurd h (Nat.not_lt_zero _)), ih]

end Fill

section More

variable {args : List (List Char)} (next : List Char)

theorem length_append_singleton : (args ++ [next]).length = args.length + 1 := by
  rw [List.length_append, List.length_singleton]

theorem fill_more_hole {i : Nat} (h : i < args.length) (cs : List Char) :
    fill (args ++ [next]) (placeholder i ++ cs) = args.getD i [] ++ fill (args ++ [next]) cs := by
  rw [fill_hole (by rw [length_append_singleton]; omega), List.getD_append _ _ _ _ h]

theorem fill_more_last (cs : List Char) :
    fill (args ++ [next]) (placeholder args.length ++ cs) = next ++ fill (args ++ [next]) cs := by
  rw [fill_hole (by rw [length_append_singleton]; omega), List.getD_append_right _ _ _ _ (Nat.le_refl _),
    Nat.sub_self]
  rfl

variable {next}

theorem occurrences_le_fill (args : List (List Char)) (cs : List Char) :
    occurrences (placeholder args.length) cs ≤ occurrences (placeholder args.length) (fill args cs) := by
  induction cs using format_induction (· < args.length + 1) with
  | nil => exact Nat.le_refl _
  | hole i cs hi ih =>
    rcases Nat.lt_succ_iff_lt_or_eq.1 hi with hlt | rfl
    · rw [fill_hole hlt, occurrences_hole hlt.ne']
      exact ih.trans (occurrences_le_append _ _ _)
    · rw [fill_hole_beyond (Nat.le_refl _), occurrences_hole_self, occurrences_hole_self]
      exact Nat.succ_le_succ ih
  | char c cs hnot ih =>
    rw [fill_cons fun i hi => hnot i (by omega), occurrences_cons_of_not (hnot _ (by omega))]
    exact ih.trans (occurrences_le_append _ [c] _)

/-- When what has been put in has made no new placeholder of the next argument, then replacing that
placeholder fills the format with one argument more. -/
theorem replaceAll_fill (next : List Char) {cs : List Char}
    (h : occurrences (placeholder args.length) (fill args cs) = occurrences (placeholder args.length) cs) :
    replaceAll (placeholder args.length) next (fill args cs) = fill (args ++ [next]) cs := by
  have hne := placeholder_ne_nil args.length
  induction cs using format_induction (· < args.length + 1) with
  | nil => exact replaceAll_nil next hne
  | hole i cs hi ih =>
    rcases Nat.lt_succ_iff_lt_or_eq.1 hi with hlt | rfl
    · have hle := occurrences_le_fill args cs
      have hle' := occurrences_le_append (placeholder args.length) (args.getD i []) (fill args cs)
      rw [fill_hole hlt, occurrences_hole hlt.ne'] at h
      rw [fill_hole hlt, fill_more_hole next hlt, replaceAll_append_of_occurrences hne next _ (by omega),
        ih (by omega)]
    · rw [fill_hole_beyond (Nat.le_refl _), occurrences_hole_self, occurrences_hole_self] at h
      rw [fill_hole_beyond (Nat.le_refl _), replaceAll_append next hne, fill_more_last,
        ih (Nat.succ.inj h)]
  | char c cs hnot ih =>
    have hle := occurrences_le_fill args cs
    have hfill : fill args (c :: cs) = c :: fill args cs := fill_cons fun i hi => hnot i (by omega)
    rw [hfill, occurrences_cons_of_not (hnot _ (by omega))] at h
    have hstart : ¬ (placeholder args.length).IsPrefix (c :: fill args cs) := by
      intro hprefix
      rw [occurrences_cons_of_isPrefix hprefix] at h
      omega
    rw [occurrences_cons_of_not hstart] at h
    rw [hfill, replaceAll_cons next hne hstart, ih h, fill_cons fun i hi => hnot i ?_]
    rwa [length_append_singleton] at hi

theorem length_fill_more (args : List (List Char)) (next cs : List Char) :
    (fill (args ++ [next]) cs).length +
        occurrences (placeholder args.length) cs * (placeholder args.length).length =
      (fill args cs).length + occurrences (placeholder args.length) cs * next.length := by
  induction cs using format_induction (· < args.length + 1) with
  | nil => rw [occurrences, Nat.zero_mul, Nat.zero_mul, fill, fill, fillFrom, fillFrom]
  | hole i cs hi ih =>
    rcases Nat.lt_succ_iff_lt_or_eq.1 hi with hlt | rfl
    · rw [fill_more_hole next hlt, fill_hole hlt, occurrences_hole hlt.ne', List.length_append,
        List.length_append]
      omega
    · rw [fill_more_last, fill_hole_beyond (Nat.le_refl _), occurrences_hole_self, List.length_append,
        List.length_append, Nat.succ_mul, Nat.succ_mul]
      omega
  | char c cs hnot ih =>
    rw [fill_cons fun i hi => hnot i (by rwa [length_append_singleton] at hi),
      fill_cons fun i hi => hnot i (by omega), occurrences_cons_of_not (hnot _ (by omega)),
      List.length_cons, List.length_cons]
    omega

theorem replaceAll_fill_iff {next cs : List Char}
    (hlength : next.length ≠ (placeholder args.length).length) :
    replaceAll (placeholder args.length) next (fill args cs) = fill (args ++ [next]) cs ↔
      occurrences (placeholder args.length) (fill args cs) = occurrences (placeholder args.length) cs := by
  refine ⟨fun h => ?_, replaceAll_fill next⟩
  have hreplaced := length_replaceAll (notMem_placeholderTail args.length) next (fill args cs)
  have hfilled := length_fill_more args next cs
  rw [← placeholder_eq, h] at hreplaced
  by_contra hne
  have hlt := lt_of_le_of_ne (occurrences_le_fill args cs) (Ne.symm hne)
  obtain ⟨k, hk⟩ := Nat.exists_eq_add_of_lt hlt
  rw [hk] at hreplaced
  have hmul : (k + 1) * (placeholder args.length).length = (k + 1) * next.length := by
    simp only [Nat.add_mul] at hreplaced ⊢
    omega
  exact hlength (Nat.eq_of_mul_eq_mul_left (Nat.succ_pos k) hmul).symm

end More

theorem formatFrom_append (i : Nat) (args : List (List Char)) (next cs : List Char) :
    formatFrom i (args ++ [next]) cs =
      replaceAll (placeholder (i + args.length)) next (formatFrom i args cs) := by
  induction args generalizing i cs with
  | nil => rfl
  | cons arg args ih =>
    rw [List.cons_append, formatFrom, ih, formatFrom, List.length_cons, Nat.add_right_comm, Nat.add_assoc]

/-- Putting in the arguments before it makes no new placeholder of any argument. -/
def NoneArise (args : List (List Char)) (format : List Char) : Prop :=
  ∀ i < args.length, occurrences (placeholder i) (fill (args.take i) format) =
    occurrences (placeholder i) format

theorem noneArise_append_singleton {args : List (List Char)} {next format : List Char} :
    NoneArise (args ++ [next]) format ↔ NoneArise args format ∧
      occurrences (placeholder args.length) (fill args format) =
        occurrences (placeholder args.length) format := by
  have hlast : (args ++ [next]).take args.length = args := List.take_left' rfl
  constructor
  · refine fun h => ⟨fun i hi => ?_, ?_⟩
    · have hi' := h i (by rw [length_append_singleton]; omega)
      rwa [List.take_append_of_le_length hi.le] at hi'
    · have hnext := h args.length (by rw [length_append_singleton]; omega)
      rwa [hlast] at hnext
  · rintro ⟨hargs, hnext⟩ i hi
    rw [length_append_singleton, Nat.lt_succ_iff_lt_or_eq] at hi
    rcases hi with hi | rfl
    · rw [List.take_append_of_le_length hi.le, hargs i hi]
    · rw [hlast, hnext]

theorem formatFrom_eq_fill {args : List (List Char)} {format : List Char} (h : NoneArise args format) :
    formatFrom 0 args format = fill args format := by
  induction args using List.reverseRecOn with
  | nil => exact (fill_nil format).symm
  | append_singleton args next ih =>
    obtain ⟨hargs, hnext⟩ := noneArise_append_singleton.1 h
    rw [formatFrom_append, ih hargs, Nat.zero_add, replaceAll_fill next hnext]

/-- The next argument is put in at once as well exactly when no placeholder of it has arisen, unless its text
is as long as its placeholder. -/
theorem formatFrom_eq_fill_append_iff {args : List (List Char)} {next format : List Char}
    (h : NoneArise args format) (hlength : next.length ≠ (placeholder args.length).length) :
    formatFrom 0 (args ++ [next]) format = fill (args ++ [next]) format ↔
      NoneArise (args ++ [next]) format := by
  rw [formatFrom_append, formatFrom_eq_fill h, Nat.zero_add, replaceAll_fill_iff hlength,
    noneArise_append_singleton, and_iff_right h]

def isBrace (c : Char) : Bool := c == '\x7b' || c == '\x7d'

/-- The first brace behind an opening brace is no opening one. -/
def Unnested (format : List Char) : Prop :=
  ∀ rest, ('\x7b' :: rest).IsSuffix format → rest.find? isBrace ≠ some '\x7b'

theorem eq_append_of_fill {args : List (List Char)} {xs cs rest : List Char} (hxs : '\x7d' ∉ xs)
    (hcs : cs.find? isBrace ≠ some '\x7b') (h : xs ++ '\x7d' :: rest = fill args cs) :
    ∃ behind, cs = xs ++ '\x7d' :: behind := by
  cases hfind : cs.find? isBrace with
  | none =>
    have hnone := List.find?_eq_none.1 hfind
    have hfill := @fill_append_of_notMem args _ (fun hopen => hnone _ hopen rfl) []
    rw [List.append_nil, fill_empty, List.append_nil] at hfill
    exact ⟨rest, by rw [h, hfill]⟩
  | some c =>
    obtain ⟨hbrace, before, behind, rfl, hbefore⟩ := List.find?_eq_some_iff_append.1 hfind
    have hbefore' (d : Char) (hd : isBrace d = true) : d ∉ before := fun hmem => by
      have := hbefore d hmem
      rw [hd] at this
      exact Bool.false_ne_true this
    have hclosing : c = '\x7d' := by
      rcases Bool.or_eq_true_iff.1 hbrace with hc | hc
      · exact absurd hfind (by rwa [beq_iff_eq.1 hc] at hcs ⊢)
      · exact beq_iff_eq.1 hc
    subst hclosing
    rw [fill_append_of_notMem (hbefore' _ rfl), fill_cons fun i _ => not_prefix_of_ne (by decide) i _] at h
    have hsame := congrArg (List.takeWhile (· ≠ '\x7d')) h
    rw [takeWhile_ne_append hxs, takeWhile_ne_append (hbefore' _ rfl)] at hsame
    exact ⟨behind, by rw [hsame]⟩

theorem occurrences_fill_of_unnested {args : List (List Char)}
    (hargs : ∀ arg ∈ args, '\x7b' ∉ arg) {cs : List Char} (h : Unnested cs) :
    occurrences (placeholder args.length) (fill args cs) = occurrences (placeholder args.length) cs := by
  induction cs using format_induction (· < args.length + 1) with
  | nil => rfl
  | hole i cs hi ih =>
    have hcs := ih fun rest hsuffix => h rest (hsuffix.trans (List.suffix_append _ _))
    rcases Nat.lt_succ_iff_lt_or_eq.1 hi with hlt | rfl
    · rw [fill_hole hlt, occurrences_hole hlt.ne', placeholder_eq, occurrences_append_of_notMem,
        ← placeholder_eq, hcs]
      rw [List.getD_eq_getElem _ _ hlt]
      exact hargs _ (List.getElem_mem hlt)
    · rw [fill_hole_beyond (Nat.le_refl _), occurrences_hole_self, occurrences_hole_self, hcs]
  | char c cs hnot ih =>
    have hcs := ih fun rest hsuffix => h rest (hsuffix.trans (List.suffix_cons _ _))
    have hself := hnot _ (Nat.lt_succ_self args.length)
    have hfill : ¬ (placeholder args.length).IsPrefix (c :: fill args cs) := by
      intro hprefix
      obtain ⟨rfl, rest, htail⟩ := List.cons_prefix_cons.1 hprefix
      have hdigits : Nat.toDigits 10 args.length ++ '\x7d' :: rest = fill args cs := by simpa using htail
      obtain ⟨behind, rfl⟩ := eq_append_of_fill (notMem_toDigits (by decide) _)
        (h cs List.suffix_rfl) hdigits
      exact hself ⟨behind, by simp [placeholder]⟩
    rw [fill_cons fun i hi => hnot i (by omega), occurrences_cons_of_not hself,
      occurrences_cons_of_not hfill, hcs]

theorem noneArise_of_unnested {args : List (List Char)} {format : List Char}
    (hargs : ∀ arg ∈ args, '\x7b' ∉ arg) (h : Unnested format) : NoneArise args format := by
  intro i hi
  have hlength : (args.take i).length = i := List.length_take_of_le hi.le
  have htake (arg : List Char) (harg : arg ∈ args.take i) : '\x7b' ∉ arg :=
    hargs arg (List.mem_of_mem_take harg)
  have hcount := occurrences_fill_of_unnested htake h
  rwa [hlength] at hcount

def filled (format : String) (vs : List Value) : String :=
  String.ofList (fill (vs.map Value.chars) format.toList)

/-- No placeholder of an argument arises in the format by the texts of the arguments before it. -/
def Verbatim (format : String) (vs : List Value) : Prop :=
  NoneArise (vs.map Value.chars) format.toList

theorem computes_filled_iff {format : String} {vs : List Value} :
    Computes "osFormatString" [.string format, .list vs] (.string (filled format vs)) ↔
      formatFrom 0 (vs.map Value.chars) format.toList = fill (vs.map Value.chars) format.toList := by
  have hgiven := computes_formatString format vs
  refine ⟨fun h => ?_, fun h => ?_⟩
  · exact (String.ofList_injective (Value.string.inj (h.unique hgiven))).symm
  · rwa [h] at hgiven

/-- A format is filled at once, each text as it is, as long as the texts put in make no placeholder of a later
argument.  One argument more is filled in at once as well exactly when they have made none of its own, unless its
text is as long as its placeholder. -/
theorem formatString_at_once (format : String) (vs : List Value) (h : Verbatim format vs) :
    Computes "osFormatString" [.string format, .list vs] (.string (filled format vs)) ∧
      ∀ v : Value, v.chars.length ≠ (placeholder vs.length).length →
        (Computes "osFormatString" [.string format, .list (vs ++ [v])] (.string (filled format (vs ++ [v]))) ↔
          Verbatim format (vs ++ [v])) := by
  refine ⟨computes_filled_iff.2 (formatFrom_eq_fill h), fun v hlength => ?_⟩
  rw [computes_filled_iff, Verbatim, List.map_append, List.map_singleton]
  exact formatFrom_eq_fill_append_iff h (by rwa [List.length_map])

/-- A number in one place, and a name in two. -/
theorem formatString_at_once_box :
    Verbatim "\x7b1\x7d, \x7b0\x7d of \x7b1\x7d" [.integer 3, .string "box"] ∧
    Computes "osFormatString" [.string "\x7b1\x7d, \x7b0\x7d of \x7b1\x7d", .list [.integer 3, .string "box"]]
      (.string "box, 3 of box") := by
  have h : Verbatim "\x7b1\x7d, \x7b0\x7d of \x7b1\x7d" [.integer 3, .string "box"] := by
    refine noneArise_of_unnested (by decide) ?_
    simp [Unnested, isBrace, List.suffix_cons_iff]
  exact ⟨h, (formatString_at_once _ _ h).1⟩

/-- The text of the first argument is a placeholder of the second one, and is replaced. -/
theorem formatString_twice :
    ¬ ∀ (format : String) (vs : List Value),
      Computes "osFormatString" [.string format, .list vs] (.string (filled format vs)) := fun h => by
  have hsame := computes_filled_iff.1 (h "\x7b0\x7d" [.string "\x7b1\x7d", .string "x"])
  revert hsame
  decide

end PrimScript.Library
