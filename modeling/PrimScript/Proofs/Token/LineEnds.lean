import PrimScript.Proofs.Token.Returns

/-! Two texts read side by side that differ only in their line ends.  Tokens come in pairs, but for
line feeds: a carriage return before one is read first, as blanks of its own or with those before
it.  In between the columns differ, and behind the line feed they are the same again. -/

namespace PrimScript

open Text (withReturns)

namespace Text

theorem takeLine_withReturns (cs : List Char) :
    (withReturns cs).takeWhile (· ≠ '\n') = cs.takeWhile (· ≠ '\n') ∨
      (withReturns cs).takeWhile (· ≠ '\n') = cs.takeWhile (· ≠ '\n') ++ ['\r'] := by
  induction cs with
  | nil => exact .inl rfl
  | cons c cs ih =>
    by_cases hc : c = '\n'
    · subst hc
      exact .inr rfl
    · simpa [hc] using ih

theorem trimEnd_takeLine_withReturns (cs : List Char) :
    trimEnd ((withReturns cs).takeWhile (· ≠ '\n')) = trimEnd (cs.takeWhile (· ≠ '\n')) := by
  have hblank : isBlank '\r' := by decide
  rcases takeLine_withReturns cs with h | h
  · rw [h]
  · rw [h]
    simp [trimEnd, hblank]

end Text

namespace Position

def SamePlace (p p' : Position) : Prop := p'.line = p.line ∧ p'.column = p.column

theorem SamePlace.after {p p' : Position} (h : SamePlace p p') (piece : List Char) :
    SamePlace (p.after piece) (p'.after (withReturns piece)) := by
  induction piece generalizing p p' with
  | nil => exact h
  | cons c piece ih =>
    by_cases hc : c = '\n'
    · subst hc
      have hnext : SamePlace (p.next '\n') ((p'.next '\r').next '\n') := by
        simp [SamePlace, next, h.1]
      exact ih hnext
    · have hnext : SamePlace (p.next c) (p'.next c) := by simp [SamePlace, next, hc, h.1, h.2]
      rw [Text.withReturns_cons hc]
      exact ih hnext

end Position

namespace Lexeme

open Position (SamePlace after_append after_past past)
open Token (Alongside Mate)

variable {cs cs' piece rest tail : List Char} {p p' q : Position} {t : Token} {l : Lexeme}
  {ls ls' : List Lexeme}

def seen (l : Lexeme) : Token × Nat × Nat := (l.token, l.start.line, l.start.column)

def view (ls : List Lexeme) : List (Token × Nat × Nat) := (significant ls).map seen

theorem view_append (ls ls' : List Lexeme) : view (ls ++ ls') = view ls ++ view ls' := by
  simp [view, significant]

theorem view_cons (l : Lexeme) (ls : List Lexeme) : view (l :: ls) = view [l] ++ view ls :=
  view_append [l] ls

theorem view_trivia (h : l.token.isTrivia) : view [l] = [] := by simp [view, significant, h]

def Unbroken (cs : List Char) (l : Lexeme) : Prop :=
  l.token.isString → ∀ piece, slice? cs l = some piece → '\n' ∉ piece

theorem Reads.append {mid : List Char} {r : Position} (h : Reads p cs ls q mid)
    (h' : Reads q mid ls' r tail) : Reads p cs (ls ++ ls') r tail := by
  induction h with
  | done => exact h'
  | turn ht _ ih => exact .turn ht (ih h')

theorem Reads.one (piece : List Char) (h : Token.scan (piece ++ rest) = some (t, rest)) :
    Reads p (piece ++ rest) [⟨t, p, (p.after piece).offset⟩] (p.after piece) rest :=
  .turn h (.done _ _)

/-- The places of two readers between turns: the second is behind in the same text with returns, or
has read the return of a line end already. -/
inductive Abreast : Position → List Char → Position → List Char → Prop
  | whole {p p' : Position} {cs : List Char} (h : SamePlace p p') : Abreast p cs p' (withReturns cs)
  | within {p p' : Position} {cs : List Char} (h : p'.line = p.line) :
      Abreast p ('\n' :: cs) p' ('\n' :: withReturns cs)

theorem reads_newline (h : p'.line = p.line) (cs : List Char) :
    ∃ l q', Reads p' ('\n' :: withReturns cs) [l] q' (withReturns cs) ∧ l.token.isTrivia ∧
      SamePlace (p.after ['\n']) q' :=
  ⟨_, _, .one ['\n'] rfl, rfl, by simp [SamePlace, Position.after, Position.next, h]⟩

theorem Abreast.newline (h : Abreast p ('\n' :: cs) p' cs') :
    ∃ ms q', Reads p' cs' ms q' (withReturns cs) ∧ SamePlace (p.after ['\n']) q' ∧
      view ms = [] := by
  generalize hcs : '\n' :: cs = mid at h
  cases h with
  | whole h =>
    subst hcs
    have hreturn : (p'.after ['\r']).line = p.line := h.1
    obtain ⟨l, q', hl, htrivia, hq⟩ := reads_newline hreturn cs
    exact ⟨_, q', (Reads.one ['\r'] rfl).append hl, hq, by
      rw [view_append, view_trivia rfl, view_trivia htrivia, List.append_nil]⟩
  | within h =>
    cases hcs
    obtain ⟨l, q', hl, htrivia, hq⟩ := reads_newline h cs
    exact ⟨[l], q', hl, hq, view_trivia htrivia⟩

theorem view_eq_of_mate {t' : Token} {stop stop' : Nat} (hm : Mate piece t t')
    (hp : SamePlace p p') (hs : t.isString → '\n' ∉ piece) :
    view [⟨t', p', stop'⟩] = view [⟨t, p, stop⟩] := by
  rcases hm with ⟨ht, ht'⟩ | he
  · rw [view_trivia ht', view_trivia ht]
  · rw [he hs]
    by_cases ht : t.isTrivia
    · rw [view_trivia ht, view_trivia ht]
    · simp [view, significant, ht, seen, hp.1, hp.2]

theorem Abreast.turn (h : Abreast p (piece ++ rest) p' cs') (hr : '\r' ∉ piece ++ rest)
    (ht : Token.scan (piece ++ rest) = some (t, rest)) (stop : Nat) :
    ∃ ms q' rest', Reads p' cs' ms q' rest' ∧ Abreast (p.after piece) rest q' rest' ∧
      ((t.isString → '\n' ∉ piece) → view ms = view [⟨t, p, stop⟩]) := by
  by_cases hn : (piece ++ rest).head? = some '\n'
  · obtain ⟨mid, hmid⟩ := List.head?_eq_some_iff.1 hn
    rw [hmid] at h ht
    obtain ⟨rfl, rfl⟩ := Prod.mk.inj (Option.some.inj ht : (Token.newline, mid) = (t, rest))
    obtain rfl : piece = ['\n'] := List.append_cancel_right hmid
    obtain ⟨ms, q', hms, hq, hview⟩ := h.newline
    exact ⟨ms, q', _, hms, .whole hq, fun _ => by rw [hview, view_trivia rfl]⟩
  · generalize hcs : piece ++ rest = cs at h hr ht hn
    cases h with
    | within => exact absurd rfl hn
    | whole h =>
      have ha := Token.alongside_scan hr hn
      rw [ht] at ha
      generalize ht' : Token.scan (withReturns cs) = read' at ha
      subst hcs
      cases ha with
      | @piece _ _ t' hm =>
        rw [Text.withReturns_append] at ht' ⊢
        exact ⟨_, _, _, .one _ ht', .whole (h.after piece), view_eq_of_mate (hm piece rfl) h⟩
      | @line rest _ t' htrivia htrivia' =>
        have hsplit : withReturns (piece ++ '\n' :: rest) =
            (withReturns piece ++ ['\r']) ++ '\n' :: withReturns rest := by simp
        rw [hsplit] at ht' ⊢
        refine ⟨_, _, _, .one _ ht', .within ?_, fun _ => ?_⟩
        · rw [after_append]
          exact (h.after piece).1
        · rw [view_trivia htrivia', view_trivia htrivia]

theorem Reads.abreast (h : Reads p cs ls q tail) (before : List Char) (hp : p = past before)
    (hr : '\r' ∉ cs) (ha : Abreast p cs p' cs') :
    ∃ ms q' tail', Reads p' cs' ms q' tail' ∧ Abreast q tail q' tail' ∧
      ((∀ l ∈ ls, l.Unbroken (before ++ cs)) → view ms = view ls) := by
  induction h generalizing before p' cs' with
  | done p cs => exact ⟨[], p', cs', .done _ _, ha, fun _ => rfl⟩
  | @turn p q piece rest tail t ls ht next ih =>
    obtain ⟨ms, q', rest', hms, ha', hview⟩ := ha.turn hr ht (p.after piece).offset
    have hrest : '\r' ∉ rest := fun h => hr (List.mem_append_right piece h)
    obtain ⟨ms', r', tail', hms', ha'', hview'⟩ :=
      ih (before ++ piece) (by rw [hp, after_past]) hrest ha'
    refine ⟨ms ++ ms', r', tail', hms.append hms', ha'', fun hu => ?_⟩
    rw [List.append_assoc] at hview'
    rw [List.forall_mem_cons] at hu
    have hpiece : t.isString → '\n' ∉ piece := by
      intro hs
      refine hu.1 hs piece ?_
      simp only [slice?, hp, after_past]
      exact Text.slice?_append before piece rest
    rw [view_append, hview hpiece, hview' hu.2, ← view_cons]

theorem Reads.suffix (h : Reads p cs ls q tail) : tail <:+ cs := by
  induction h with
  | done => exact List.suffix_rfl
  | @turn _ _ piece _ _ _ _ _ _ ih => exact ih.trans (List.suffix_append piece _)

theorem message_withReturns (h : SamePlace p p') (rest : List Char) :
    LexError.message ⟨p', withReturns rest⟩ = LexError.message ⟨p, rest⟩ := by
  have hdetail : LexError.detail ⟨p', withReturns rest⟩ = LexError.detail ⟨p, rest⟩ := by
    unfold LexError.detail
    rw [Text.trimEnd_takeLine_withReturns]
  have htext : p'.text = p.text := by rw [Position.text, Position.text, h.1, h.2]
  unfold LexError.message
  rw [hdetail, htext]

inductive Similar (cs : List Char) :
    Except LexError (List Lexeme) → Except LexError (List Lexeme) → Prop
  | ok {ls ls' : List Lexeme} (h : (∀ l ∈ ls, l.Unbroken cs) → view ls' = view ls) :
      Similar cs (.ok ls) (.ok ls')
  | error {e e' : LexError} (h : e'.message = e.message) : Similar cs (.error e) (.error e')

theorem similar_ofChars (hr : '\r' ∉ cs) :
    Similar cs (ofChars cs) (ofChars (withReturns cs)) := by
  have hstart : Abreast .start cs .start (withReturns cs) := .whole ⟨rfl, rfl⟩
  have h := reads_scanFrom .start cs.length cs (Nat.le_refl _)
  rw [ofChars, ofChars]
  cases hs : scanFrom .start cs.length cs with
  | ok ls =>
    rw [hs] at h
    obtain ⟨ms, q', tail', hms, ha, hview⟩ := h.abreast [] rfl hr hstart
    cases ha
    rw [hms.scanFrom (Nat.le_refl _)]
    exact .ok hview
  | error e =>
    rw [hs] at h
    obtain ⟨ls, hls, hne, hstop⟩ := h
    obtain ⟨ms, q', tail', hms, ha, -⟩ := hls.abreast [] rfl hr hstart
    obtain ⟨q, tail⟩ := e
    cases ha with
    | within => cases hstop
    | whole h =>
      have hn : tail.head? ≠ some '\n' := by
        intro hn
        obtain ⟨tail, rfl⟩ := List.head?_eq_some_iff.1 hn
        cases hstop
      have hstop' : Token.scan (withReturns tail) = none := by
        have ha := Token.alongside_scan (fun h => hr (hls.suffix.subset h)) hn
        rw [hstop] at ha
        generalize Token.scan (withReturns tail) = read' at ha
        cases ha
        rfl
      rw [hms.scanFrom_stuck (Nat.le_refl _) (by simpa using hne) hstop']
      exact .error (message_withReturns h tail)

end Lexeme

end PrimScript
