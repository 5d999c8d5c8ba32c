import PrimScript.Proofs.Iteration
import PrimScript.Proofs.Text.Search
import PrimScript.Text.Tokens

/-! Splitting of texts, turn by turn.  A turn takes a separator, a spacer or a character from the text ahead, so
that the splitting ends; and what has been found, joined again, is the text up to there. -/

namespace PrimScript.Text

section Patterns

variable {patterns separators spacers : List (List Char)} {p cs rest : List Char}

theorem dropFirst?_eq_some (h : dropFirst? patterns cs = some (p, rest)) :
    p ∈ patterns ∧ p ≠ [] ∧ cs = p ++ rest := by
  obtain ⟨q, hq, hfound⟩ := List.exists_of_findSome?_eq_some h
  split at hfound
  · cases hfound
  · next hne =>
    obtain ⟨rest', hrest, heq⟩ := Option.map_eq_some_iff.1 hfound
    cases heq
    exact ⟨hq, hne, eq_append_of_dropPrefix? hrest⟩

theorem tokensFrom_length_append (xs current cs : List Char) :
    tokensFrom separators spacers xs.length current (xs ++ cs) =
      tokensFrom separators spacers 0 current cs := by
  induction xs with
  | nil => rfl
  | cons x xs ih => rw [List.length_cons, List.cons_append, tokensFrom, ih]

theorem tokensFrom_behind (hne : p ≠ []) {c : Char} (h : c :: cs = p ++ rest) :
    tokensFrom separators spacers (p.length - 1) [] cs = tokensFrom separators spacers 0 [] rest := by
  cases p with
  | nil => exact absurd rfl hne
  | cons a p =>
    have htail : cs = p ++ rest := (List.cons.inj h).2
    rw [htail, List.length_cons, Nat.add_sub_cancel, tokensFrom_length_append]

theorem tokensFrom_separator (h : dropFirst? separators cs = some (p, rest)) (current : List Char) :
    tokensFrom separators spacers 0 current cs =
      current.reverse :: tokensFrom separators spacers 0 [] rest := by
  obtain ⟨-, hne, heq⟩ := dropFirst?_eq_some h
  cases cs with
  | nil => exact absurd (List.append_eq_nil_iff.1 heq.symm).1 hne
  | cons c cs =>
    rw [tokensFrom, h]
    exact congrArg _ (tokensFrom_behind hne heq)

theorem tokensFrom_spacer (hseparators : dropFirst? separators cs = none)
    (h : dropFirst? spacers cs = some (p, rest)) (current : List Char) :
    tokensFrom separators spacers 0 current cs =
      current.reverse :: p :: tokensFrom separators spacers 0 [] rest := by
  obtain ⟨-, hne, heq⟩ := dropFirst?_eq_some h
  cases cs with
  | nil => exact absurd (List.append_eq_nil_iff.1 heq.symm).1 hne
  | cons c cs =>
    rw [tokensFrom, hseparators, h]
    exact congrArg (fun tokens => _ :: _ :: tokens) (tokensFrom_behind hne heq)

theorem tokensFrom_char {c : Char} (hseparators : dropFirst? separators (c :: cs) = none)
    (hspacers : dropFirst? spacers (c :: cs) = none) (current : List Char) :
    tokensFrom separators spacers 0 current (c :: cs) =
      tokensFrom separators spacers 0 (c :: current) cs := by
  rw [tokensFrom, hseparators, hspacers]

end Patterns

theorem joinWith_append_pair (sep : List Char) (pieces : List (List Char)) (a b : List Char) :
    joinWith sep (pieces ++ [a, b]) = joinWith sep (pieces ++ [a ++ (sep ++ b)]) := by
  induction pieces with
  | nil => simp [joinWith]
  | cons piece pieces ih =>
    cases pieces with
    | nil => simp [joinWith]
    | cons next pieces => simpa [joinWith] using ih

/-- A text that is being split: the tokens found, the one that has been begun, and the text ahead. -/
structure Splitting where
  found : List (List Char)
  current : List Char
  ahead : List Char

namespace Splitting

variable {separators spacers : List (List Char)} {s s' : Splitting}

def start (cs : List Char) : Splitting := ⟨[], [], cs⟩

/-- A separator or a spacer ends the token that has been begun; any other character goes on with it. -/
def turn (separators spacers : List (List Char)) (s : Splitting) :
    Option (Turn Splitting (List (List Char))) :=
  match s.ahead with
  | [] => some (.done (s.found ++ [s.current]))
  | c :: cs =>
    match dropFirst? separators (c :: cs) with
    | some (_, rest) => some (.next ⟨s.found ++ [s.current], [], rest⟩)
    | none =>
      match dropFirst? spacers (c :: cs) with
      | some (p, rest) => some (.next ⟨s.found ++ [s.current, p], [], rest⟩)
      | none => some (.next ⟨s.found, s.current ++ [c], cs⟩)

inductive Takes (separators spacers : List (List Char)) (s : Splitting) : Splitting → Prop
  | separator {p rest : List Char} (h : dropFirst? separators s.ahead = some (p, rest)) :
    Takes separators spacers s ⟨s.found ++ [s.current], [], rest⟩
  | spacer {p rest : List Char} (hseparators : dropFirst? separators s.ahead = none)
    (h : dropFirst? spacers s.ahead = some (p, rest)) :
    Takes separators spacers s ⟨s.found ++ [s.current, p], [], rest⟩
  | char {c : Char} {cs : List Char} (h : s.ahead = c :: cs)
    (hseparators : dropFirst? separators (c :: cs) = none)
    (hspacers : dropFirst? spacers (c :: cs) = none) :
    Takes separators spacers s ⟨s.found, s.current ++ [c], cs⟩

theorem turn_cases (separators spacers : List (List Char)) (s : Splitting) :
    (s.ahead = [] ∧ turn separators spacers s = some (.done (s.found ++ [s.current]))) ∨
      ∃ s', turn separators spacers s = some (.next s') ∧ Takes separators spacers s s' := by
  unfold turn
  split
  · next h => exact .inl ⟨h, rfl⟩
  · next c cs h =>
    refine .inr ?_
    split
    · next p rest hp => exact ⟨_, rfl, .separator (h ▸ hp)⟩
    · next hseparators =>
      split
      · next p rest hp => exact ⟨_, rfl, .spacer (h ▸ hseparators) (h ▸ hp)⟩
      · next hspacers => exact ⟨_, rfl, .char h hseparators hspacers⟩

theorem takes_of_turn (h : turn separators spacers s = some (.next s')) :
    Takes separators spacers s s' := by
  rcases turn_cases separators spacers s with ⟨-, hdone⟩ | ⟨t, ht, htakes⟩
  · cases hdone.symm.trans h
  · cases ht.symm.trans h
    exact htakes

theorem of_turn_done {r : List (List Char)} (h : turn separators spacers s = some (.done r)) :
    s.ahead = [] ∧ r = s.found ++ [s.current] := by
  rcases turn_cases separators spacers s with ⟨hahead, hdone⟩ | ⟨t, ht, -⟩
  · cases hdone.symm.trans h
    exact ⟨hahead, rfl⟩
  · cases ht.symm.trans h

theorem Takes.length_lt (h : Takes separators spacers s s') : s'.ahead.length < s.ahead.length := by
  cases h with
  | separator h =>
    obtain ⟨-, hne, heq⟩ := dropFirst?_eq_some h
    rw [heq, List.length_append]
    exact Nat.lt_add_of_pos_left (List.length_pos_iff.2 hne)
  | spacer _ h =>
    obtain ⟨-, hne, heq⟩ := dropFirst?_eq_some h
    rw [heq, List.length_append]
    exact Nat.lt_add_of_pos_left (List.length_pos_iff.2 hne)
  | char h =>
    rw [h, List.length_cons]
    exact Nat.lt_succ_self _

def tokens (separators spacers : List (List Char)) (s : Splitting) : List (List Char) :=
  s.found ++ tokensFrom separators spacers 0 s.current.reverse s.ahead

theorem Takes.tokens_eq (h : Takes separators spacers s s') :
    s'.tokens separators spacers = s.tokens separators spacers := by
  unfold tokens
  cases h with
  | separator h =>
    rw [tokensFrom_separator h, List.reverse_reverse, List.append_assoc]
    rfl
  | spacer hseparators h =>
    rw [tokensFrom_spacer hseparators h, List.reverse_reverse, List.append_assoc]
    rfl
  | char h hseparators hspacers =>
    rw [h, tokensFrom_char hseparators hspacers, List.reverse_append]
    rfl

def joined (sep : List Char) (s : Splitting) : List Char :=
  joinWith sep (s.found ++ [s.current ++ s.ahead])

theorem Takes.joined_eq {sep : List Char} (h : Takes [sep] [] s s') : s'.joined sep = s.joined sep := by
  unfold joined
  cases h with
  | separator h =>
    obtain ⟨hsep, -, heq⟩ := dropFirst?_eq_some h
    cases List.mem_singleton.1 hsep
    rw [heq, ← joinWith_append_pair, List.append_assoc]
    rfl
  | spacer _ h => cases h
  | char h => rw [h, List.append_assoc, List.singleton_append]

def flattened (s : Splitting) : List Char := s.found.flatten ++ (s.current ++ s.ahead)

theorem Takes.flattened_eq (h : Takes [] spacers s s') : s'.flattened = s.flattened := by
  unfold flattened
  cases h with
  | separator h => cases h
  | spacer _ h =>
    obtain ⟨-, -, heq⟩ := dropFirst?_eq_some h
    simp [heq]
  | char h => simp [h]

end Splitting

section Runs

open Splitting

variable (separators spacers : List (List Char)) (sep cs : List Char)

theorem Splitting.final {β : Type} {separators spacers : List (List Char)} {s : Splitting}
    {r : List (List Char)} (h : Turn.Ends (turn separators spacers) s r) (f : Splitting → β)
    (hf : ∀ s s', Takes separators spacers s s' → f s' = f s) :
    ∃ found current, r = found ++ [current] ∧ f ⟨found, current, []⟩ = f s :=
  h.keeps (I := fun t => f t = f s) (P := fun r => ∃ found current, r = found ++ [current] ∧
      f ⟨found, current, []⟩ = f s)
    (fun t _ hdone ht => by
      obtain ⟨hahead, hr⟩ := of_turn_done hdone
      exact ⟨t.found, t.current, hr, hahead ▸ ht⟩)
    (fun t t' hnext ht => (hf t t' (takes_of_turn hnext)).trans ht) rfl

theorem ends_tokens : Turn.Ends (turn separators spacers) (start cs) (tokens separators spacers cs) := by
  refine Turn.ends_of_kept (fun s => s.ahead.length) (Splitting.tokens separators spacers) (fun s => ?_) (start cs)
  rcases turn_cases separators spacers s with ⟨hahead, hdone⟩ | ⟨s', hnext, htakes⟩
  · refine .inl ?_
    rw [Splitting.tokens, hahead, tokensFrom, List.reverse_reverse]
    exact hdone
  · exact .inr ⟨s', hnext, htakes.tokens_eq, htakes.length_lt⟩

theorem joinWith_tokens : joinWith sep (tokens [sep] [] cs) = cs := by
  obtain ⟨found, current, hr, hfinal⟩ :=
    final (ends_tokens [sep] [] cs) (joined sep) fun _ _ htakes => htakes.joined_eq
  rw [joined, List.append_nil] at hfinal
  rw [hr, hfinal]
  rfl

/-- Where a separator overlaps itself, it is taken as early as it can be. -/
example : tokens [['a', 'a']] [] ['b', 'a', 'a', 'a', 'c'] = [['b'], ['a', 'c']] := by decide

theorem flatten_tokens : (tokens [] spacers cs).flatten = cs := by
  obtain ⟨found, current, hr, hfinal⟩ :=
    final (ends_tokens [] spacers cs) flattened fun _ _ htakes => htakes.flattened_eq
  rw [flattened, List.append_nil, ← List.flatten_concat] at hfinal
  rw [hr, hfinal]
  rfl

theorem flatten_someTokens : (someTokens [] spacers cs).flatten = cs := by
  rw [someTokens, List.flatten_filter_ne_nil, flatten_tokens]

end Runs

end PrimScript.Text
