import PrimScript.Text.Blank

/-! Searching, splitting and joining of texts, as lists of characters. -/

namespace PrimScript.Text

def dropPrefix? : (pattern cs : List Char) → Option (List Char)
  | [], cs => some cs
  | _ :: _, [] => none
  | p :: ps, c :: cs => if p = c then dropPrefix? ps cs else none

theorem dropPrefix?_append (p cs : List Char) : dropPrefix? p (p ++ cs) = some cs := by
  induction p with
  | nil => simp [dropPrefix?]
  | cons a p ih => simp [dropPrefix?, ih]

theorem eq_append_of_dropPrefix? {p cs rest : List Char} (h : dropPrefix? p cs = some rest) :
    cs = p ++ rest := by
  induction p generalizing cs with
  | nil => simpa [dropPrefix?] using h
  | cons a p ih =>
    cases cs with
    | nil => simp [dropPrefix?] at h
    | cons c cs =>
      simp only [dropPrefix?] at h
      split at h
      · next hac => rw [hac, List.cons_append, ih h]
      · simp at h

def indexOf? (pattern : List Char) : List Char → Option Nat
  | [] => if pattern = [] then some 0 else none
  | c :: cs =>
    if (dropPrefix? pattern (c :: cs)).isSome then some 0
    else (indexOf? pattern cs).map (· + 1)

def splitOn (sep : Char → Bool) : List Char → List (List Char)
  | [] => [[]]
  | c :: cs =>
    if sep c then [] :: splitOn sep cs
    else match splitOn sep cs with
      | [] => [[c]]
      | piece :: pieces => (c :: piece) :: pieces

/-- The non-overlapping occurrences of `pattern`, scanning from the left: the text before the
first one, and the text after each one up to the next.  `skip` counts the characters of an
occurrence that are still to be passed over. -/
def cutAt (pattern : List Char) : (skip : Nat) → List Char → List Char × List (List Char)
  | _, [] => ([], [])
  | skip + 1, _ :: cs => cutAt pattern skip cs
  | 0, c :: cs =>
    if (dropPrefix? pattern (c :: cs)).isSome then
      let (piece, pieces) := cutAt pattern (pattern.length - 1) cs
      ([], piece :: pieces)
    else
      let (piece, pieces) := cutAt pattern 0 cs
      (c :: piece, pieces)

/-- `joinWith sep [a, b, c] = a ++ sep ++ b ++ sep ++ c`. -/
def joinWith (sep : List Char) : List (List Char) → List Char
  | [] => []
  | [piece] => piece
  | piece :: pieces => piece ++ sep ++ joinWith sep pieces

def replaceAll (pattern replacement cs : List Char) : List Char :=
  if pattern = [] then cs
  else
    let (piece, pieces) := cutAt pattern 0 cs
    joinWith replacement (piece :: pieces)

/-- The lines of a text: a line ends at a line break, or at the end of the text when something
follows the last break; a carriage return just before the break is not part of the line. -/
def lines (cs : List Char) : List (List Char) :=
  let pieces := splitOn (· = '\n') cs
  let dropReturn (line : List Char) : List Char :=
    match line.reverse with
    | '\r' :: rest => rest.reverse
    | _ => line
  let ended := pieces.dropLast.map dropReturn
  match pieces.getLast? with
  | none | some [] => ended
  | some last => ended ++ [last]

end PrimScript.Text
