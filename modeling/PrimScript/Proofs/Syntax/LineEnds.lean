import PrimScript.Proofs.Syntax.Places
import PrimScript.Proofs.Token.LineEnds
import PrimScript.Syntax.Source

/-! Scripts in texts with line ends of either kind.  The lexemes that are not trivia are seen at the
same lines and columns, and more than that neither the parser nor its messages make use of. -/

namespace PrimScript

open Lexeme (Similar Unbroken ofChars significant view)
open Text (withReturns)

def Relocation.bytesless : Relocation where
  move l := ⟨l.token, ⟨0, l.start.line, l.start.column⟩, 0⟩
  token_move _ := rfl

theorem SyntaxError.message_bytesless (e : SyntaxError) :
    (e.move .bytesless).message = e.message := by
  obtain ⟨fault, rest⟩ := e
  cases rest <;> rfl

theorem mapError_bind_congr {ε γ α β : Type} {g : ε → γ} {x x' : Except ε α} (k : α → Except ε β)
    (h : x'.mapError g = x.mapError g) : (x' >>= k).mapError g = (x >>= k).mapError g := by
  cases x with
  | ok a =>
    cases x' with
    | ok a' => rw [Except.ok.inj h]
    | error e' => cases h
  | error e =>
    cases x' with
    | ok a' => cases h
    | error e' => exact congrArg Except.error (Except.error.inj h)

namespace Script

variable {ls ls' : List Lexeme}

theorem map_bytesless_of_view (h : view ls' = view ls) :
    (significant ls').map Relocation.bytesless.move =
      (significant ls).map Relocation.bytesless.move := by
  have hmap := congrArg (List.map fun r => (⟨r.1, ⟨0, r.2.1, r.2.2⟩, 0⟩ : Lexeme)) h
  rwa [view, view, List.map_map, List.map_map] at hmap

theorem parse_of_view (h : view ls' = view ls) :
    (parse (significant ls')).mapError SyntaxError.message =
      (parse (significant ls)).mapError SyntaxError.message := by
  have hmessage : ∀ ts, (parse ts).mapError SyntaxError.message =
      (parse (ts.map Relocation.bytesless.move)).mapError SyntaxError.message := by
    intro ts
    rw [parse_map]
    cases parse ts with
    | ok s => rfl
    | error e => exact congrArg Except.error e.message_bytesless.symm
  rw [hmessage, map_bytesless_of_view h, ← hmessage]

theorem ofSource_withReturns {source : String} (h : Similar source.toList (ofChars source.toList)
      (ofChars (withReturns source.toList)))
    (hs : ∀ ls, ofChars source.toList = .ok ls → ∀ l ∈ ls, l.Unbroken source.toList) :
    (ofSource (String.ofList (withReturns source.toList))).mapError ScriptError.message =
      (ofSource source).mapError ScriptError.message := by
  have hgrammar : ∀ x : Parse Script, (x.mapError ScriptError.grammar).mapError ScriptError.message =
      x.mapError SyntaxError.message := by
    intro x
    cases x <;> rfl
  rw [ofSource, ofSource, String.toList_ofList]
  generalize ofChars source.toList = x at h hs
  generalize ofChars (withReturns source.toList) = x' at h
  cases h with
  | ok hview =>
    dsimp only
    rw [hgrammar, hgrammar, parse_of_view (hview (hs _ rfl))]
  | error hmessage =>
    dsimp only [Except.mapError, ScriptError.message]
    rw [hmessage]

/-- Whether lines end with a line feed, or with a carriage return before it, makes no difference to
a text without string literals that go on over a line end: the same lexemes are seen at the same
lines and columns, and the same script is read, or none for the same reason. -/
theorem read_withReturns (source : String) (hr : '\r' ∉ source.toList)
    (hs : ∀ ls, ofChars source.toList = .ok ls → ∀ l ∈ ls, l.Unbroken source.toList) :
    ((ofChars (withReturns source.toList)).map view).mapError LexError.message =
        ((ofChars source.toList).map view).mapError LexError.message ∧
      (read (String.ofList (withReturns source.toList))).mapError ScriptError.message =
        (read source).mapError ScriptError.message := by
  have h := Lexeme.similar_ofChars hr
  constructor
  · generalize ofChars source.toList = x at h hs
    generalize ofChars (withReturns source.toList) = x' at h
    cases h with
    | ok hview => exact congrArg Except.ok (hview (hs _ rfl))
    | error hmessage => exact congrArg Except.error hmessage
  · exact mapError_bind_congr validated (ofSource_withReturns h hs)

def commented : List Char :=
  ['"', 'a', '"', ' ', '\n', '/', '/', 'c', '\n', '/', '*', '\n', '*', '/', '+']

def commentedLexemes : List Lexeme :=
  [⟨.string "a", ⟨0, 1, 1⟩, 3⟩, ⟨.blanks " ", ⟨3, 1, 4⟩, 4⟩, ⟨.newline, ⟨4, 1, 5⟩, 5⟩,
   ⟨.lineComment "c", ⟨5, 2, 1⟩, 8⟩, ⟨.newline, ⟨8, 2, 4⟩, 9⟩, ⟨.blockComment "\n", ⟨9, 3, 1⟩, 14⟩,
   ⟨.symbol .plus, ⟨14, 4, 3⟩, 15⟩]

theorem read_withReturns_commented :
    ((ofChars (withReturns commented)).map view).mapError LexError.message =
        .ok [(.string "a", 1, 1), (.symbol .plus, 4, 3)] ∧
      (read (String.ofList (withReturns commented))).mapError ScriptError.message =
        (read (String.ofList commented)).mapError ScriptError.message := by
  have hls : ofChars commented = .ok commentedLexemes := rfl
  have h := read_withReturns (String.ofList commented)
  rw [String.toList_ofList, hls] at h
  refine h (by decide) ?_
  rintro ls he l hl hs
  cases he
  obtain rfl : l = ⟨.string "a", ⟨0, 1, 1⟩, 3⟩ := by
    simp only [commentedLexemes, List.mem_cons, List.not_mem_nil, or_false] at hl
    rcases hl with rfl | rfl | rfl | rfl | rfl | rfl | rfl
    · rfl
    all_goals cases hs
  intro piece hpiece
  obtain rfl : ['"', 'a', '"'] = piece := Option.some.inj hpiece
  decide

end Script

end PrimScript
