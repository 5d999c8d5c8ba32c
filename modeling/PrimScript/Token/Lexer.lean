import PrimScript.Text.Search
import PrimScript.Text.Visible
import PrimScript.Token.Basic

/-! Reading tokens.  `Token.scan` reads the one token a text starts with; `Lexeme.ofChars` reads a
whole text and says where each token stands.  Every token takes at least one character, and trivia
are tokens too, so the tokens tile the text. -/

namespace PrimScript

namespace Token

/-- Blanks within a line; a carriage return is one of them. -/
def isLineBlank (c : Char) : Bool := c = ' ' || c = '\t' || c = '\r'

def isWordStart (c : Char) : Bool := c.isAlpha || c = '_'

def isWordChar (c : Char) : Bool := isWordStart c || Decimal.isDigit c

def isLineEnd (c : Char) : Bool := c = '\n' || c = '\r'

def scanBlanks (cs : List Char) : Option (Token × List Char) :=
  match cs.takeWhile isLineBlank with
  | [] => none
  | bs => some (.blanks (String.ofList bs), cs.dropWhile isLineBlank)

def scanNewline : List Char → Option (Token × List Char)
  | '\r' :: '\n' :: cs => some (.newline, cs)
  | '\n' :: cs => some (.newline, cs)
  | _ => none

def scanClose : List Char → Option (List Char × List Char)
  | [] => none
  | c :: cs =>
    match Text.dropPrefix? ['*', '/'] (c :: cs) with
    | some rest => some ([], rest)
    | none => (scanClose cs).map fun (content, rest) => (c :: content, rest)

/-- The content of a line comment and what follows it, the line break included.  A carriage
return has to be followed by a line feed. -/
def scanLine (cs : List Char) : Option (List Char × List Char) :=
  let content := cs.takeWhile (!isLineEnd ·)
  match cs.dropWhile (!isLineEnd ·) with
  | '\r' :: '\n' :: rest => some (content, '\r' :: '\n' :: rest)
  | '\r' :: _ => none
  | rest => some (content, rest)

def scanComment : List Char → Option (Token × List Char)
  | '/' :: '/' :: cs =>
    (scanLine cs).map fun (content, rest) =>
      (.lineComment (String.ofList (Text.trim content)), rest)
  | '/' :: '*' :: cs =>
    (scanClose cs).map fun (content, rest) => (.blockComment (String.ofList content), rest)
  | _ => none

def escaped : Char → Char
  | 'n' => '\n'
  | 't' => '\t'
  | c => c

def scanQuoted : List Char → Option (List Char × List Char)
  | [] => none
  | '"' :: cs => some ([], cs)
  | ['\\'] => none
  | '\\' :: c :: cs => (scanQuoted cs).map fun (content, rest) => (escaped c :: content, rest)
  | c :: cs => (scanQuoted cs).map fun (content, rest) => (c :: content, rest)

def scanString : List Char → Option (Token × List Char)
  | '"' :: cs => (scanQuoted cs).map fun (content, rest) => (.string (String.ofList content), rest)
  | _ => none

/-! Parts of numbers: what is left of a text after them. -/

def digit0 (cs : List Char) : List Char := cs.dropWhile Decimal.isDigit

def digit1 (cs : List Char) : Option (List Char) :=
  if cs.takeWhile Decimal.isDigit = [] then none else some (digit0 cs)

def oneOf (set : List Char) : List Char → Option (List Char)
  | [] => none
  | c :: cs => if c ∈ set then some cs else none

def opt (p : List Char → Option (List Char)) (cs : List Char) : List Char := (p cs).getD cs

def exponent (cs : List Char) : Option (List Char) := do
  let rest ← oneOf ['e', 'E'] cs
  digit1 (opt (oneOf ['+', '-']) rest)

def floatText (cs : List Char) : Option (List Char) :=
  (do
    let rest ← digit1 cs
    let rest ← oneOf ['.'] rest
    return opt exponent (digit0 rest)) <|>
  (do
    let rest ← oneOf ['.'] cs
    let rest ← digit1 rest
    return opt exponent rest) <|>
  (do
    let rest ← digit1 cs
    exponent rest)

def scanFloat (cs : List Char) : Option (Token × List Char) :=
  (floatText cs).map fun rest =>
    (.float ((Decimal.float? (Decimal.before rest cs)).getD 0), opt (oneOf ['f', 'F']) rest)

/-- The 32-bit integer written by a numeral, which wraps up to 32 bits.  One that needs more is `-1`. -/
def clamp (n : Nat) : Int32 := if Nat.pow 2 32 - 1 < n then -1 else Int32.ofNat n

def ofDigits (base : Nat) (cs : List Char) : Token :=
  .integer (clamp ((Decimal.word? base cs).getD (Nat.pow 2 64 - 1)))

def scanHexadecimal : List Char → Option (Token × List Char)
  | '0' :: x :: cs =>
    if x = 'x' ∨ x = 'X' then
      match cs.takeWhile Decimal.isHexDigit with
      | [] => none
      | ds => some (ofDigits 16 ds, cs.dropWhile Decimal.isHexDigit)
    else none
  | _ => none

def scanInteger (cs : List Char) : Option (Token × List Char) :=
  scanHexadecimal cs <|>
    (digit1 cs).map fun rest => (ofDigits 10 (Decimal.before rest cs), rest)

def ofWord (word : String) : Token :=
  match Keyword.ofText? word with
  | some k => .keyword k
  | none =>
    match ValueType.ofName? word with
    | some t => .type t
    | none => .ident word

def scanWord : List Char → Option (Token × List Char)
  | [] => none
  | c :: cs =>
    if isWordStart c then
      some (ofWord (String.ofList (c :: cs.takeWhile isWordChar)), cs.dropWhile isWordChar)
    else none

def scanSymbol (cs : List Char) : Option (Token × List Char) :=
  Symbol.all.findSome? fun s => (Text.dropPrefix? s.chars cs).map (.symbol s, ·)

def scanDelimiter : List Char → Option (Token × List Char)
  | [] => none
  | c :: cs => (Delimiter.all.find? (·.char = c)).map fun d => (.delimiter d, cs)

def scan (cs : List Char) : Option (Token × List Char) :=
  scanBlanks cs <|> scanNewline cs <|> scanComment cs <|> scanString cs <|> scanFloat cs <|>
    scanInteger cs <|> scanWord cs <|> scanSymbol cs <|> scanDelimiter cs

end Token

/-- A place in a text: the bytes before it, its line, and its column, both counted from one. -/
structure Position where
  offset : Nat
  line : Nat
  column : Nat
  deriving DecidableEq, Repr, Inhabited

namespace Position

def start : Position := ⟨0, 1, 1⟩

def next (p : Position) (c : Char) : Position :=
  if c = '\n' then ⟨p.offset + c.utf8Size, p.line + 1, 1⟩
  else ⟨p.offset + c.utf8Size, p.line, p.column + 1⟩

def after (p : Position) (cs : List Char) : Position := cs.foldl next p

def text (p : Position) : String := s!"line {p.line}, column {p.column}"

end Position

/-- A token where it stands: from its first byte up to `stop`. -/
structure Lexeme where
  token : Token
  start : Position
  stop : Nat
  deriving Inhabited

structure LexError where
  position : Position
  rest : List Char

namespace LexError

/-- At most twenty characters of what was found instead of a token. -/
def found (e : LexError) : String := String.ofList (e.rest.take 20)

def expectation (index : Nat) (what : String) (line : List Char) : String :=
  s!"{index}: at line 1, in {what}:\n{String.ofList line}\n^\n\n"

def detail (e : LexError) : String :=
  let line := Text.trimEnd (e.rest.takeWhile (· ≠ '\n'))
  expectation 0 "Tag" line ++ expectation 1 "Alt" line ++ expectation 2 "delimiter" line ++
    expectation 3 "Alt" line

def message (e : LexError) : String := s!"Tokenize error at {e.position.text}: {e.detail}"

end LexError

namespace Lexeme

def scanFrom (p : Position) : (fuel : Nat) → List Char → Except LexError (List Lexeme)
  | _, [] => .ok []
  | 0, c :: cs => .error ⟨p, c :: cs⟩
  | fuel + 1, c :: cs =>
    match Token.scan (c :: cs) with
    | none => .error ⟨p, c :: cs⟩
    | some (token, rest) =>
      let q := p.after ((c :: cs).take (cs.length + 1 - rest.length))
      match scanFrom q fuel rest with
      | .ok lexemes => .ok (⟨token, p, q.offset⟩ :: lexemes)
      | .error e => .error e

/-- The lexemes of a whole text.  A text has at most as many lexemes as characters. -/
def ofChars (cs : List Char) : Except LexError (List Lexeme) := scanFrom .start cs.length cs

def significant (ls : List Lexeme) : List Lexeme := ls.filter (!·.token.isTrivia)

end Lexeme

namespace Token

def display : Token → String
  | .keyword k => k.text
  | .type t => t.name
  | .ident name => name
  | .symbol s => String.ofList s.chars
  | .delimiter d => String.singleton d.char
  | .integer n => String.ofList (Decimal.integerText n.toInt)
  | .float x => Decimal.plain x
  | .string s => String.ofList ('"' :: s.toList.flatMap (quotedChar Text.isVisible) ++ ['"'])
  | .blanks _ => "whitespace"
  | .newline => "newline"
  | .lineComment _ => "comment"
  | .blockComment _ => "comment"

end Token

end PrimScript
