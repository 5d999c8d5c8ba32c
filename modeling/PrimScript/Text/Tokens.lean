import PrimScript.Text.Search

/-! Splitting of texts: at separators and around spacers, and at the commas of a list of values. -/

namespace PrimScript.Text

/-- The first of the patterns that a text starts with, and what follows it; an empty pattern is
passed over. -/
def dropFirst? (patterns : List (List Char)) (cs : List Char) :
    Option (List Char × List Char) :=
  patterns.findSome? fun p => if p = [] then none else (dropPrefix? p cs).map (p, ·)

/-- The tokens between separators, which are dropped, and spacers, which are tokens too.  Where
both fit, a separator goes first.  `skip` counts the characters of a separator or spacer that are
still to be passed over, and `current` is the token so far, reversed. -/
def tokensFrom (separators spacers : List (List Char)) :
    (skip : Nat) → (current : List Char) → List Char → List (List Char)
  | _, current, [] => [current.reverse]
  | skip + 1, current, _ :: cs => tokensFrom separators spacers skip current cs
  | 0, current, c :: cs =>
    match dropFirst? separators (c :: cs) with
    | some (p, _) => current.reverse :: tokensFrom separators spacers (p.length - 1) [] cs
    | none =>
      match dropFirst? spacers (c :: cs) with
      | some (p, _) =>
        current.reverse :: p :: tokensFrom separators spacers (p.length - 1) [] cs
      | none => tokensFrom separators spacers 0 (c :: current) cs

def tokens (separators spacers : List (List Char)) (cs : List Char) : List (List Char) :=
  tokensFrom separators spacers 0 [] cs

def someTokens (separators spacers : List (List Char)) (cs : List Char) : List (List Char) :=
  (tokens separators spacers cs).filter (· ≠ [])

/-- The texts between commas, trimmed; commas inside angle brackets do not separate.  `depth` is
the number of brackets open, and `current` the text so far, reversed. -/
def fieldsFrom : (depth : Nat) → (current : List Char) → List Char → List (List Char)
  | _, current, [] => [trim current.reverse]
  | depth, current, c :: cs =>
    if c = '<' then fieldsFrom (depth + 1) (c :: current) cs
    else if c = '>' then fieldsFrom (depth - 1) (c :: current) cs
    else if c = ',' ∧ depth = 0 then trim current.reverse :: fieldsFrom 0 [] cs
    else fieldsFrom depth (c :: current) cs

def fields (cs : List Char) : List (List Char) := if cs = [] then [] else fieldsFrom 0 [] cs

end PrimScript.Text
