import PrimScript.Proofs.Token.Kinds
import PrimScript.Text.Utf8

/-! The tokens of a text tile it.  Whatever kind of token a text starts with, reading it takes a
first character and leaves an end of the text, so a text has no more tokens than characters.  Where
each token stands follows from the pieces before it: its byte, its line and its column are read off
the text up to there. -/

namespace PrimScript

namespace Text

@[simp] theorem byteCount_nil : byteCount [] = 0 := rfl

@[simp] theorem byteCount_cons (c : Char) (cs : List Char) :
    byteCount (c :: cs) = c.utf8Size + byteCount cs := rfl

@[simp] theorem byteCount_append (as bs : List Char) :
    byteCount (as ++ bs) = byteCount as + byteCount bs := by
  induction as with
  | nil => simp
  | cons a as ih => simp [ih, Nat.add_assoc]

theorem byteCount_pos {cs : List Char} (h : cs ≠ []) : 0 < byteCount cs := by
  cases cs with
  | nil => contradiction
  | cons c cs =>
    have hc := c.utf8Size_pos
    simp only [byteCount_cons]
    omega

@[simp] theorem takeBytes_append (as bs : List Char) :
    takeBytes (byteCount as) (as ++ bs) = as := by
  induction as with
  | nil =>
    cases bs with
    | nil => rfl
    | cons b bs => simp [takeBytes, Nat.pos_iff_ne_zero.1 b.utf8Size_pos]
  | cons a as ih => simp [takeBytes, ih]

def slice? (start stop : Nat) (cs : List Char) : Option (List Char) :=
  let upToStart := takeBytes start cs
  let upToStop := takeBytes stop cs
  if byteCount upToStart = start ∧ byteCount upToStop = stop then
    some (upToStop.drop upToStart.length)
  else none

theorem slice?_append (before piece rest : List Char) :
    slice? (byteCount before) (byteCount (before ++ piece)) (before ++ (piece ++ rest)) =
      some piece := by
  have h : takeBytes (byteCount (before ++ piece)) (before ++ (piece ++ rest)) = before ++ piece := by
    rw [← List.append_assoc, takeBytes_append]
  simp only [slice?, takeBytes_append, h, and_self, if_true, List.drop_left]

end Text

namespace Token

def Takes (cs rest : List Char) : Prop := ∃ c piece, cs = c :: piece ++ rest

theorem Takes.of_suffix {c : Char} {cs rest : List Char} (h : rest <:+ cs) :
    Takes (c :: cs) rest := by
  obtain ⟨piece, rfl⟩ := h
  exact ⟨c, piece, rfl⟩

theorem Takes.trans_suffix {cs mid rest : List Char} (h : Takes cs mid) (hr : rest <:+ mid) :
    Takes cs rest := by
  obtain ⟨c, piece, rfl⟩ := h
  exact .of_suffix (hr.trans (List.suffix_append piece mid))

theorem takes_dropWhile {p : Char → Bool} {cs : List Char} (h : cs.takeWhile p ≠ []) :
    Takes cs (cs.dropWhile p) := by
  cases cs with
  | nil => simp at h
  | cons c cs =>
    by_cases hc : p c
    · rw [List.dropWhile_cons_of_pos hc]
      exact .of_suffix (List.dropWhile_suffix p)
    · rw [List.takeWhile_cons_of_neg hc] at h
      exact absurd rfl h

variable {cs rest : List Char} {t : Token}

theorem takes_of_scanBlanks (h : scanBlanks cs = some (t, rest)) : Takes cs rest := by
  unfold scanBlanks at h
  split at h
  · simp at h
  · next hne =>
    cases h
    exact takes_dropWhile fun h0 => hne h0

theorem takes_of_scanNewline (h : scanNewline cs = some (t, rest)) : Takes cs rest := by
  unfold scanNewline at h
  split at h
  · cases h
    exact .of_suffix (List.suffix_cons _ _)
  · cases h
    exact .of_suffix List.suffix_rfl
  · simp at h

theorem suffix_of_scanClose {content : List Char} (h : scanClose cs = some (content, rest)) :
    rest <:+ cs := by
  induction cs generalizing content with
  | nil => simp [scanClose] at h
  | cons c cs ih =>
    rw [scanClose] at h
    split at h
    · next hd =>
      cases h
      exact ⟨_, (Text.eq_append_of_dropPrefix? hd).symm⟩
    · obtain ⟨⟨content', rest'⟩, hc, he⟩ := Option.map_eq_some_iff.1 h
      cases he
      exact (ih hc).trans (List.suffix_cons c cs)

theorem suffix_of_scanLine {content : List Char} (h : scanLine cs = some (content, rest)) :
    rest <:+ cs := by
  have hd := List.dropWhile_suffix (l := cs) (!isLineEnd ·)
  unfold scanLine at h
  dsimp only at h
  split at h
  · next he =>
    cases h
    exact he ▸ hd
  · simp at h
  · cases h
    exact hd

theorem takes_of_scanComment (h : scanComment cs = some (t, rest)) : Takes cs rest := by
  unfold scanComment at h
  split at h
  · obtain ⟨⟨content, rest'⟩, hc, he⟩ := Option.map_eq_some_iff.1 h
    cases he
    exact .of_suffix ((suffix_of_scanLine hc).trans (List.suffix_cons _ _))
  · obtain ⟨⟨content, rest'⟩, hc, he⟩ := Option.map_eq_some_iff.1 h
    cases he
    exact .of_suffix ((suffix_of_scanClose hc).trans (List.suffix_cons _ _))
  · simp at h

theorem suffix_of_scanQuoted {content : List Char} (h : scanQuoted cs = some (content, rest)) :
    rest <:+ cs := by
  fun_induction scanQuoted cs generalizing content with
  | case1 => simp at h
  | case2 cs =>
    cases h
    exact List.suffix_cons _ _
  | case3 => simp at h
  | case4 c cs ih =>
    obtain ⟨⟨content', rest'⟩, hc, he⟩ := Option.map_eq_some_iff.1 h
    cases he
    exact (ih hc).trans ((List.suffix_cons c cs).trans (List.suffix_cons _ _))
  | case5 c cs _ _ _ ih =>
    obtain ⟨⟨content', rest'⟩, hc, he⟩ := Option.map_eq_some_iff.1 h
    cases he
    exact (ih hc).trans (List.suffix_cons c cs)

theorem takes_of_scanString (h : scanString cs = some (t, rest)) : Takes cs rest := by
  unfold scanString at h
  split at h
  · obtain ⟨⟨content, rest'⟩, hc, he⟩ := Option.map_eq_some_iff.1 h
    cases he
    exact .of_suffix (suffix_of_scanQuoted hc)
  · simp at h

theorem takes_of_scanFloat (h : scanFloat cs = some (t, rest)) : Takes cs rest := by
  obtain ⟨n, tail, hn, -, -, rfl⟩ := scanFloat_eq_some_iff.1 h
  obtain ⟨v, hv, rfl⟩ := Decimal.of_scanNumeral hn
  obtain ⟨c, w, rfl, -⟩ := hv.exists_cons
  have ht : Takes (c :: w ++ tail) tail := ⟨c, w, rfl⟩
  refine ht.trans_suffix ?_
  rcases exists_append_afterSuffix tail with he | ⟨f, -, he⟩
  · exact ⟨[], he.symm⟩
  · exact ⟨[f], he.symm⟩

theorem takes_of_scanInteger (h : scanInteger cs = some (t, rest)) : Takes cs rest := by
  rw [scanInteger_eq] at h
  obtain ⟨⟨n, tail⟩, hn, he⟩ := Option.map_eq_some_iff.1 h
  cases he
  rw [Decimal.scanInteger, Option.or_eq_some_iff, Decimal.scanHexadecimal_eq_some_iff,
    Decimal.scanDecimal_eq_some_iff] at hn
  rcases hn with ⟨x, hs, -, -, -, -, rfl, -⟩ | ⟨-, ds, hd, -, rfl, -⟩
  · exact ⟨'0', x :: hs, rfl⟩
  · obtain ⟨d, ds, rfl⟩ := List.exists_cons_of_ne_nil hd.1
    exact ⟨d, ds, rfl⟩

theorem takes_of_scanWord (h : scanWord cs = some (t, rest)) : Takes cs rest := by
  unfold scanWord at h
  split at h
  · simp at h
  · split at h
    · cases h
      exact .of_suffix (List.dropWhile_suffix _)
    · simp at h

theorem Symbol.chars_ne_nil (s : Symbol) : s.chars ≠ [] := by cases s <;> simp [Symbol.chars]

theorem takes_of_scanSymbol (h : scanSymbol cs = some (t, rest)) : Takes cs rest := by
  obtain ⟨s, -, hs⟩ := List.exists_of_findSome?_eq_some h
  obtain ⟨rest', hd, he⟩ := Option.map_eq_some_iff.1 hs
  cases he
  have hc := Text.eq_append_of_dropPrefix? hd
  obtain ⟨c, piece, hp⟩ := List.exists_cons_of_ne_nil (Symbol.chars_ne_nil s)
  exact ⟨c, piece, hp ▸ hc⟩

theorem takes_of_scanDelimiter (h : scanDelimiter cs = some (t, rest)) : Takes cs rest := by
  unfold scanDelimiter at h
  split at h
  · simp at h
  · obtain ⟨d, -, he⟩ := Option.map_eq_some_iff.1 h
    cases he
    exact .of_suffix List.suffix_rfl

theorem takes_of_orElse {a b : Option (Token × List Char)} (ha : a = some (t, rest) → Takes cs rest)
    (hb : b = some (t, rest) → Takes cs rest) (h : (a <|> b) = some (t, rest)) : Takes cs rest := by
  cases a with
  | none => exact hb h
  | some _ => exact ha h

theorem takes_of_scan (h : scan cs = some (t, rest)) : Takes cs rest :=
  takes_of_orElse takes_of_scanBlanks
    (takes_of_orElse takes_of_scanNewline
      (takes_of_orElse takes_of_scanComment
        (takes_of_orElse takes_of_scanString
          (takes_of_orElse takes_of_scanFloat
            (takes_of_orElse takes_of_scanInteger
              (takes_of_orElse takes_of_scanWord
                (takes_of_orElse takes_of_scanSymbol takes_of_scanDelimiter))))))) h

theorem ne_nil_of_scan {piece : List Char} (h : scan (piece ++ rest) = some (t, rest)) :
    piece ≠ [] := by
  obtain ⟨c, taken, he⟩ := takes_of_scan h
  rw [List.append_cancel_right he]
  exact List.cons_ne_nil c taken

end Token

namespace Position

/-- The place that a text before it gives: the bytes of that text, one more than its line breaks,
and one more than the characters after the last of them. -/
def past (before : List Char) : Position :=
  ⟨Text.byteCount before, 1 + before.count '\n',
    1 + (before.reverse.takeWhile (· ≠ '\n')).length⟩

theorem next_past (before : List Char) (c : Char) : (past before).next c = past (before ++ [c]) := by
  by_cases h : c = '\n'
  · subst h
    simp [next, past, Nat.add_assoc]
  · simp [next, past, h, Nat.add_comm 1]

theorem after_past (before piece : List Char) : (past before).after piece = past (before ++ piece) := by
  induction piece generalizing before with
  | nil => simp [after]
  | cons c piece ih =>
    rw [after, List.foldl_cons, next_past, ← after, ih, List.append_assoc, List.singleton_append]

theorem after_append (p : Position) (as bs : List Char) :
    p.after (as ++ bs) = (p.after as).after bs :=
  List.foldl_append

theorem offset_after (p : Position) (cs : List Char) :
    (p.after cs).offset = p.offset + Text.byteCount cs := by
  induction cs generalizing p with
  | nil => rfl
  | cons c cs ih =>
    have hc : (p.next c).offset = p.offset + c.utf8Size := by
      unfold next
      split <;> rfl
    rw [after, List.foldl_cons, ← after, ih, hc, Text.byteCount_cons, Nat.add_assoc]

end Position

namespace Lexeme

open Position (after_append after_past past)

def slice? (cs : List Char) (l : Lexeme) : Option (List Char) :=
  Text.slice? l.start.offset l.stop cs

/-- One after another and none of them empty, lexemes fill the bytes from `start` up to `stop`. -/
def Contiguous (start : Nat) : List Lexeme → (stop : Nat) → Prop
  | [], stop => start = stop
  | l :: ls, stop => l.start.offset = start ∧ start < l.stop ∧ Contiguous l.stop ls stop

/-- The lexemes tile the text: they fill its bytes, cut into pieces it is their pieces, and the
text before each of them gives its line and its column. -/
structure Tiles (cs : List Char) (ls : List Lexeme) : Prop where
  spans : Contiguous 0 ls (Text.byteCount cs)
  pieces : ∃ pieces, ls.mapM (slice? cs) = some pieces ∧ pieces.flatten = cs
  places : ∀ l ∈ ls, l.start = .past (Text.takeBytes l.start.offset cs)

/-- The turns of the reading loop: as long as a token starts there, it is read where it stands and
the loop goes on behind it. -/
inductive Reads : Position → List Char → List Lexeme → Position → List Char → Prop
  | done (p : Position) (cs : List Char) : Reads p cs [] p cs
  | turn {p q : Position} {piece rest tail : List Char} {t : Token} {ls : List Lexeme}
      (h : Token.scan (piece ++ rest) = some (t, rest)) (next : Reads (p.after piece) rest ls q tail) :
      Reads p (piece ++ rest) (⟨t, p, (p.after piece).offset⟩ :: ls) q tail

theorem Reads.length_le {p q : Position} {cs tail : List Char} {ls : List Lexeme}
    (h : Reads p cs ls q tail) : ls.length + tail.length ≤ cs.length := by
  induction h with
  | done p cs => simp
  | turn h _ ih =>
    obtain ⟨c, taken, he⟩ := Token.takes_of_scan h
    have hlen := congrArg List.length he
    simp only [List.length_append, List.length_cons] at hlen ih ⊢
    omega

/-- What reading from `p` gives: every turn of the loop, up to the end of the text or to a place
where no token starts. -/
theorem reads_scanFrom (p : Position) (fuel : Nat) (cs : List Char) (hf : cs.length ≤ fuel) :
    match scanFrom p fuel cs with
    | .ok ls => Reads p cs ls (p.after cs) []
    | .error e => ∃ ls, Reads p cs ls e.position e.rest ∧ e.rest ≠ [] ∧ Token.scan e.rest = none := by
  induction fuel generalizing p cs with
  | zero =>
    cases cs with
    | nil => exact .done p []
    | cons c cs => simp at hf
  | succ fuel ih =>
    cases cs with
    | nil => exact .done p []
    | cons c cs =>
      cases ht : Token.scan (c :: cs) with
      | none =>
        have hstop : scanFrom p (fuel + 1) (c :: cs) = .error ⟨p, c :: cs⟩ := by
          simp only [scanFrom, ht]
        rw [hstop]
        exact ⟨[], .done p (c :: cs), List.cons_ne_nil c cs, ht⟩
      | some read =>
        obtain ⟨t, rest⟩ := read
        obtain ⟨d, taken, he⟩ := Token.takes_of_scan ht
        have hlen := congrArg List.length he
        simp only [List.length_append, List.length_cons] at hlen hf
        have hpiece : (c :: cs).take (cs.length + 1 - rest.length) = d :: taken := by
          rw [he, show cs.length + 1 - rest.length = (d :: taken).length by simp; omega,
            List.take_left]
        have hrest := ih (p.after (d :: taken)) rest (by omega)
        simp only [scanFrom, ht, hpiece]
        rw [he] at ht ⊢
        cases hs : scanFrom (p.after (d :: taken)) fuel rest with
        | ok ls =>
          rw [hs] at hrest
          rw [after_append]
          exact .turn ht hrest
        | error e =>
          rw [hs] at hrest
          obtain ⟨ls, hls, hstop⟩ := hrest
          exact ⟨_, .turn ht hls, hstop⟩

theorem Reads.resume {p q : Position} {cs tail : List Char} {ls : List Lexeme} {fuel : Nat}
    (h : Reads p cs ls q tail) (hf : cs.length ≤ fuel) :
    ∃ left, scanFrom p fuel cs = (scanFrom q left tail).map (ls ++ ·) := by
  induction h generalizing fuel with
  | done p cs => exact ⟨fuel, by cases scanFrom p fuel cs <;> rfl⟩
  | @turn p q piece rest tail t ls ht next ih =>
    obtain ⟨c, piece, rfl⟩ := List.exists_cons_of_ne_nil (Token.ne_nil_of_scan ht)
    cases fuel with
    | zero => simp at hf
    | succ fuel =>
      simp only [List.cons_append, List.length_cons, List.length_append] at hf
      have hpiece : (c :: (piece ++ rest)).take ((piece ++ rest).length + 1 - rest.length) =
          c :: piece := by
        have hlen : (piece ++ rest).length + 1 - rest.length = (c :: piece).length := by
          simp only [List.length_append, List.length_cons]
          omega
        rw [← List.cons_append, hlen, List.take_left]
      obtain ⟨left, hrest⟩ := ih (show rest.length ≤ fuel by omega)
      rw [List.cons_append] at ht ⊢
      refine ⟨left, ?_⟩
      simp only [Lexeme.scanFrom, ht, hpiece, hrest]
      cases Lexeme.scanFrom q left tail <;> rfl

theorem Reads.scanFrom {p q : Position} {cs : List Char} {ls : List Lexeme} {fuel : Nat}
    (h : Reads p cs ls q []) (hf : cs.length ≤ fuel) : scanFrom p fuel cs = .ok ls := by
  obtain ⟨left, he⟩ := h.resume hf
  rw [he]
  cases left <;> simp [Lexeme.scanFrom, Except.map]

theorem Reads.scanFrom_stuck {p q : Position} {cs tail : List Char} {ls : List Lexeme} {fuel : Nat}
    (h : Reads p cs ls q tail) (hf : cs.length ≤ fuel) (hne : tail ≠ [])
    (hstop : Token.scan tail = none) : Lexeme.scanFrom p fuel cs = .error ⟨q, tail⟩ := by
  obtain ⟨left, he⟩ := h.resume hf
  obtain ⟨c, tail, rfl⟩ := List.exists_cons_of_ne_nil hne
  rw [he]
  cases left <;> simp [Lexeme.scanFrom, Except.map, hstop]

theorem Reads.contiguous {p q : Position} {cs tail : List Char} {ls : List Lexeme}
    (h : Reads p cs ls q tail) : Contiguous p.offset ls q.offset := by
  induction h with
  | done p cs => rfl
  | turn h _ ih =>
    refine ⟨rfl, ?_, ih⟩
    rw [Position.offset_after]
    exact Nat.lt_add_of_pos_right (Text.byteCount_pos (Token.ne_nil_of_scan h))

variable {mid : List Char} {q : Position} {ls : List Lexeme}

theorem Reads.pieces {p : Position} (h : Reads p mid ls q []) (before : List Char)
    (hp : p = .past before) :
    ∃ pieces, ls.mapM (slice? (before ++ mid)) = some pieces ∧ pieces.flatten = mid := by
  generalize htail : ([] : List Char) = tail at h
  induction h generalizing before with
  | done p cs => exact ⟨[], rfl, htail⟩
  | @turn p q piece rest tail t ls h next ih =>
    obtain ⟨pieces, hpieces, hflat⟩ := ih (before ++ piece) (by rw [hp, after_past]) htail
    have hslice : slice? (before ++ (piece ++ rest)) ⟨t, p, (p.after piece).offset⟩ = some piece := by
      rw [hp, after_past]
      exact Text.slice?_append before piece rest
    refine ⟨piece :: pieces, ?_, by simp [hflat]⟩
    rw [List.append_assoc] at hpieces
    simp [List.mapM_cons, hslice, hpieces]

theorem Reads.places {p : Position} {tail : List Char} (h : Reads p mid ls q tail)
    (before : List Char) (hp : p = .past before) :
    ∀ l ∈ ls, l.start = .past (Text.takeBytes l.start.offset (before ++ mid)) := by
  induction h generalizing before with
  | done p cs => simp
  | @turn p q piece rest tail t ls h next ih =>
    have hrest := ih (before ++ piece) (by rw [hp, after_past])
    rw [List.append_assoc] at hrest
    refine List.forall_mem_cons.2 ⟨?_, hrest⟩
    simp only [hp, past, Text.takeBytes_append]

theorem Reads.tiles {cs : List Char} (h : Reads .start cs ls (Position.start.after cs) []) :
    Tiles cs ls := by
  have hspans := h.contiguous
  rw [Position.offset_after, Position.start, Nat.zero_add] at hspans
  exact ⟨hspans, h.pieces [] rfl, h.places [] rfl⟩

/-- Reading a text ends: its loop takes at most as many turns as the text has characters.  When it
gets through the text, the lexemes tile it; else no token starts where it stops. -/
theorem tokens_tile (cs : List Char) :
    (∀ ls q rest, Reads .start cs ls q rest → ls.length ≤ cs.length) ∧
      match ofChars cs with
      | .ok ls => Reads .start cs ls (Position.start.after cs) [] ∧ Tiles cs ls
      | .error e =>
        ∃ ls, Reads .start cs ls e.position e.rest ∧ e.rest ≠ [] ∧ Token.scan e.rest = none := by
  refine ⟨fun ls q rest h => Nat.le_of_add_right_le h.length_le, ?_⟩
  have h := reads_scanFrom .start cs.length cs (Nat.le_refl _)
  rw [ofChars]
  cases hs : scanFrom .start cs.length cs with
  | ok ls =>
    rw [hs] at h
    exact ⟨h, h.tiles⟩
  | error e =>
    rw [hs] at h
    exact h

/-- Pieces with characters of several bytes and over several lines. -/
example :
    (ofChars ['/', '*', 'ü', '\n', '*', '/', '\n', 'x']).map (·.map fun l => (l.start, l.stop)) =
      .ok [(⟨0, 1, 1⟩, 7), (⟨7, 2, 3⟩, 8), (⟨8, 3, 1⟩, 9)] :=
  rfl

end Lexeme
end PrimScript
