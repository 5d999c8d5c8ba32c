import PrimScript.Decimal.Numeral
import PrimScript.Pattern.Basic

/-! Reading patterns.  Every parser returns what it read and the characters after it, or nothing
when they are not of the form of a pattern. -/

namespace PrimScript.Pattern

structure Flags where
  anyCase : Bool
  /-- `^` and `$` stand at the ends of lines too. -/
  multiLine : Bool
  /-- `.` stands for a line break too. -/
  dotAll : Bool
  /-- A lazy quantifier is a greedy one, and the other way round. -/
  swapGreed : Bool
  /-- Blanks and comments in the pattern are passed over. -/
  verbose : Bool

def Flags.none : Flags := ⟨false, false, false, false, false⟩

abbrev Reading (α : Type) := α × List Char

def anyOf (cs : List Char) : CharSet := .ofList (cs.map .single)

def lowerLetters : CharSet := .range 'a' 'z'

def upperLetters : CharSet := .range 'A' 'Z'

def asciiDigits : CharSet := .range '0' '9'

def namedSet? (name : String) : Option CharSet :=
  let letters : CharSet := .union lowerLetters upperLetters
  let printed : CharSet := .range '!' '~'
  match name with
  | "alpha" => some letters
  | "alnum" => some (.union letters asciiDigits)
  | "ascii" => some (.range '\x00' '\x7f')
  | "blank" => some (anyOf [' ', '\t'])
  | "cntrl" => some (.union (.range '\x00' '\x1f') (.single '\x7f'))
  | "digit" => some asciiDigits
  | "graph" => some printed
  | "lower" => some lowerLetters
  | "print" => some (.union printed (.single ' '))
  | "punct" => some (.diff printed (.union letters asciiDigits))
  | "space" => some (.union (.single ' ') (.range '\t' '\r'))
  | "upper" => some upperLetters
  | "word" => some (.union (.union letters asciiDigits) (.single '_'))
  | "xdigit" => some (.union asciiDigits (.union (.range 'a' 'f') (.range 'A' 'F')))
  | _ => none

inductive Escape
  | char (c : Char) : Escape
  | set (s : CharSet) : Escape
  | place (a : Anchor) : Escape

def charOf? (code : Nat) : Option Char :=
  if code < 0xD800 ∨ (0xDFFF < code ∧ code < 0x110000) then some (Char.ofNat code) else none

def hexEscape (digits : Nat) (cs : List Char) : Option (Reading Escape) :=
  match cs with
  | '\x7b' :: rest =>
    let ds := rest.takeWhile (· ≠ '\x7d')
    match rest.drop ds.length with
    | '\x7d' :: rest =>
      if ds ≠ [] ∧ ds.all Decimal.isHexDigit then
        (charOf? (Decimal.ofDigits 16 ds)).map fun c => (.char c, rest)
      else none
    | _ => none
  | cs =>
    let ds := cs.take digits
    if ds.length = digits ∧ ds.all Decimal.isHexDigit then
      (charOf? (Decimal.ofDigits 16 ds)).map fun c => (.char c, cs.drop digits)
    else none

def propertyEscape (negated : Bool) (cs : List Char) : Option (Reading Escape) :=
  let found? (name : List Char) : Option CharSet :=
    match String.ofList name with
    | "L" => some .letter
    | "Letter" => some .letter
    | "Nd" => some .digit
    | _ => none
  let result (name rest : List Char) : Option (Reading Escape) :=
    (found? name).map fun s => (.set (if negated then .except s else s), rest)
  match cs with
  | '\x7b' :: rest =>
    let name := rest.takeWhile (· ≠ '\x7d')
    match rest.drop name.length with
    | '\x7d' :: rest => result name rest
    | _ => none
  | c :: rest => result [c] rest
  | [] => none

def escape : List Char → Option (Reading Escape)
  | [] => none
  | c :: rest =>
    match c with
    | 'd' => some (.set .digit, rest)
    | 'D' => some (.set (.except .digit), rest)
    | 's' => some (.set .blank, rest)
    | 'S' => some (.set (.except .blank), rest)
    | 'w' => some (.set .word, rest)
    | 'W' => some (.set (.except .word), rest)
    | 'A' => some (.place .textStart, rest)
    | 'z' => some (.place .textEnd, rest)
    | 'b' => some (.place .boundary, rest)
    | 'B' => some (.place .noBoundary, rest)
    | '<' => some (.place .wordStart, rest)
    | '>' => some (.place .wordEnd, rest)
    | 'a' => some (.char '\x07', rest)
    | 'f' => some (.char '\x0c', rest)
    | 'n' => some (.char '\n', rest)
    | 'r' => some (.char '\r', rest)
    | 't' => some (.char '\t', rest)
    | 'v' => some (.char '\x0b', rest)
    | 'x' => hexEscape 2 rest
    | 'u' => hexEscape 4 rest
    | 'U' => hexEscape 8 rest
    | 'p' => propertyEscape false rest
    | 'P' => propertyEscape true rest
    | c =>
      if c.toNat < 0x80 ∧ !c.isAlphanum then some (.char c, rest) else none

def namedClass (cs : List Char) : Option (Reading CharSet) :=
  match cs with
  | ':' :: rest =>
    let (negated, rest) := match rest with
      | '^' :: rest => (true, rest)
      | rest => (false, rest)
    let name := rest.takeWhile fun c => 'a' ≤ c ∧ c ≤ 'z'
    match rest.drop name.length, namedSet? (String.ofList name) with
    | ':' :: ']' :: rest, some s => some (if negated then .except s else s, rest)
    | _, _ => none
  | _ => none

def classItem : List Char → Option (Reading Escape)
  | [] => none
  | '\\' :: rest =>
    match escape rest with
    | some (.place _, _) => none
    | e => e
  | c :: rest => some (.char c, rest)

def classRange (cs : List Char) : Option (Reading CharSet) := do
  let (first, rest) ← classItem cs
  let alone : Option (Reading CharSet) :=
    match first with
    | .char c => some (.single c, rest)
    | .set s => some (s, rest)
    | .place _ => none
  match rest with
  | '-' :: ']' :: _ => alone
  | '-' :: '-' :: _ => alone
  | '-' :: after =>
    let (last, rest) ← classItem after
    match first, last with
    | .char low, .char high => if low ≤ high then some (.range low high, rest) else none
    | _, _ => none
  | _ => alone

/-- The hyphens, or the closing bracket, that stand for themselves at the start of a class. -/
def classStart (cs : List Char) : CharSet × List Char :=
  match cs.takeWhile (· = '-') with
  | [] =>
    match cs with
    | ']' :: rest => (.single ']', rest)
    | cs => (.none, cs)
  | hyphens => (.single '-', cs.drop hyphens.length)

abbrev Pending := CharSet → CharSet

def classBody (verbose : Bool) : (fuel : Nat) → (pending : Pending) → (current : CharSet) →
    List Char → Option (Reading CharSet)
  | 0, _, _, _ => none
  | _ + 1, _, _, [] => none
  | fuel + 1, pending, current, c :: rest =>
    if verbose && Text.isBlank c then classBody verbose fuel pending current rest
    else
      match c, rest with
      | ']', _ => some (pending current, rest)
      | '&', '&' :: rest => classBody verbose fuel (.inter (pending current)) .none rest
      | '-', '-' :: rest => classBody verbose fuel (.diff (pending current)) .none rest
      | '~', '~' :: rest =>
        let left := pending current
        classBody verbose fuel (fun right => .union (.diff left right) (.diff right left)) .none
          rest
      | '[', _ =>
        match namedClass rest with
        | some (s, rest) => classBody verbose fuel pending (.union current s) rest
        | none => do
          let (negated, rest) := match rest with
            | '^' :: rest => (true, rest)
            | rest => (false, rest)
          let (start, rest) := classStart rest
          let (s, rest) ← classBody verbose fuel id start rest
          classBody verbose fuel pending (.union current (if negated then .except s else s)) rest
      | _, _ => do
        let (s, rest) ← classRange (c :: rest)
        classBody verbose fuel pending (.union current s) rest

def charClass (flags : Flags) (cs : List Char) : Option (Reading CharSet) := do
  let (negated, rest) := match cs with
    | '^' :: rest => (true, rest)
    | rest => (false, rest)
  let (start, rest) := classStart rest
  let (s, rest) ← classBody flags.verbose (rest.length + 1) id start rest
  some (if negated then .except s else s, rest)

/-- A count, with blanks around it passed over; it has to fit in 32 bits. -/
def count (cs : List Char) : Option (Reading Nat) :=
  let cs := Text.trimStart cs
  let ds := cs.takeWhile Decimal.isDigit
  let n := Decimal.ofDigits 10 ds
  if ds ≠ [] ∧ n < Nat.pow 2 32 then some (n, Text.trimStart (cs.drop ds.length)) else none

def counts (cs : List Char) : Option (Reading (Nat × Option Nat)) := do
  let (least, rest) ← count cs
  match rest with
  | '\x7d' :: rest => some ((least, some least), rest)
  | ',' :: rest =>
    match Text.trimStart rest with
    | '\x7d' :: rest => some ((least, none), rest)
    | rest =>
      let (most, rest) ← count rest
      match rest with
      | '\x7d' :: rest => if least ≤ most then some ((least, some most), rest) else none
      | _ => none
  | _ => none

/-- What follows the mark of a lazy quantifier, which changes nothing about whether there is a
match. -/
def afterLazy : List Char → List Char
  | '?' :: rest => rest
  | rest => rest

def setFlag? (flags : Flags) (value : Bool) : Char → Option Flags
  | 'i' => some { flags with anyCase := value }
  | 'm' => some { flags with multiLine := value }
  | 's' => some { flags with dotAll := value }
  | 'U' => some { flags with swapGreed := value }
  | 'u' => some flags
  | 'x' => some { flags with verbose := value }
  | _ => none

/-- Flags up to `:` or `)`.  No flag appears twice, and one follows the minus sign. -/
def flagLetters (flags : Flags) (value : Bool) (seen : List Char) :
    List Char → Option (Reading (Flags × List Char))
  | [] => none
  | c :: rest =>
    if c = ':' ∨ c = ')' then
      if seen.head? = some '-' then none else some ((flags, seen), c :: rest)
    else if seen.contains c then none
    else if c = '-' then flagLetters flags false ('-' :: seen) rest
    else
      match setFlag? flags value c with
      | some flags => flagLetters flags value (c :: seen) rest
      | none => none

def groupName (cs : List Char) : Option (List Char) :=
  let name := cs.takeWhile (· ≠ '>')
  let isStart (c : Char) : Bool := c = '_' || Text.isLetter c
  let isPart (c : Char) : Bool := Text.isWordPart c || c = '.' || c = '[' || c = ']'
  match name, cs.drop name.length with
  | c :: cs, '>' :: rest => if isStart c && cs.all isPart then some rest else none
  | _, _ => none

/-- How a group begins, after its opening parenthesis: with flags for what follows it, or with
flags for its content. -/
def groupStart (flags : Flags) (cs : List Char) : Option (Reading (Bool × Flags)) :=
  match cs with
  | '?' :: 'P' :: '<' :: rest => (groupName rest).map fun rest => ((true, flags), rest)
  | '?' :: '=' :: _ => none
  | '?' :: '!' :: _ => none
  | '?' :: '<' :: '=' :: _ => none
  | '?' :: '<' :: '!' :: _ => none
  | '?' :: '<' :: rest => (groupName rest).map fun rest => ((true, flags), rest)
  | '?' :: rest => do
    let ((flags, seen), rest) ← flagLetters flags true [] rest
    match rest with
    | ':' :: rest => some ((true, flags), rest)
    | ')' :: rest => if seen = [] then none else some ((false, flags), rest)
    | _ => none
  | rest => some ((true, flags), rest)

/-- The pattern of the parts read so far, the last one first.  A part that only set flags is
missing. -/
def sequence (parts : List (Option Pattern)) : Pattern :=
  parts.foldl (fun next part =>
    match part with
    | some p => .seq p next
    | none => next) .empty

def alternative (before : Option Pattern) (p : Pattern) : Pattern :=
  match before with
  | some q => .or q p
  | none => p

def quantified (least : Nat) (most : Option Nat) :
    List (Option Pattern) → Option (List (Option Pattern))
  | some p :: parts => some (some (.times p least most) :: parts)
  | _ => none

def alternatives : (fuel : Nat) → Flags → (before : Option Pattern) →
    (parts : List (Option Pattern)) → List Char → Option (Reading Pattern)
  | 0, _, _, _, _ => none
  | _ + 1, _, before, parts, [] => some (alternative before (sequence parts), [])
  | fuel + 1, flags, before, parts, c :: rest =>
    let char (s : CharSet) : Option Pattern := some (.char s flags.anyCase)
    let place (a : Anchor) : Option Pattern := some (.place a)
    let repeated (least : Nat) (most : Option Nat) (rest : List Char) : Option (Reading Pattern) :=
      match quantified least most parts with
      | some parts => alternatives fuel flags before parts (afterLazy rest)
      | none => none
    if flags.verbose && Text.isBlank c then alternatives fuel flags before parts rest
    else if flags.verbose && c = '#' then
      alternatives fuel flags before parts (rest.dropWhile (· ≠ '\n'))
    else
      match c with
      | ')' => some (alternative before (sequence parts), c :: rest)
      | '|' =>
        alternatives fuel flags (some (alternative before (sequence parts))) [] rest
      | '*' => repeated 0 none rest
      | '+' => repeated 1 none rest
      | '?' => repeated 0 (some 1) rest
      | '\x7b' =>
        match counts rest with
        | some ((least, most), rest) => repeated least most rest
        | none => none
      | '(' => do
        let ((hasContent, inner), rest) ← groupStart flags rest
        if hasContent then
          let (p, rest) ← alternatives fuel inner none [] rest
          match rest with
          | ')' :: rest => alternatives fuel flags before (some p :: parts) rest
          | _ => none
        else alternatives fuel inner before (none :: parts) rest
      | '[' => do
        let (s, rest) ← charClass flags rest
        alternatives fuel flags before (char s :: parts) rest
      | '\\' => do
        let (e, rest) ← escape rest
        let p := match e with
          | .char c => char (.single c)
          | .set s => char s
          | .place a => place a
        alternatives fuel flags before (p :: parts) rest
      | '.' =>
        let s : CharSet := .except (if flags.dotAll then .none else .single '\n')
        alternatives fuel flags before (char s :: parts) rest
      | '^' =>
        let a : Anchor := if flags.multiLine then .lineStart else .textStart
        alternatives fuel flags before (place a :: parts) rest
      | '$' =>
        let a : Anchor := if flags.multiLine then .lineEnd else .textEnd
        alternatives fuel flags before (place a :: parts) rest
      | c => alternatives fuel flags before (char (.single c) :: parts) rest

def parse? (cs : List Char) : Option Pattern :=
  match alternatives (2 * cs.length + 2) .none none [] cs with
  | some (p, []) => some p
  | _ => none

end PrimScript.Pattern
