import PrimScript.Decimal.Numeral
import PrimScript.Decimal.Shortest
import PrimScript.Syntax.Operator
import PrimScript.Syntax.ValueType

/-! The tokens of a script: words, symbols, literals, and the trivia between them. -/

namespace PrimScript

inductive Keyword
  | default : Keyword
  | state : Keyword
  | if : Keyword
  | else : Keyword
  | while : Keyword
  | do : Keyword
  | for : Keyword
  | return : Keyword
  | jump : Keyword
  | break : Keyword
  | continue : Keyword
  deriving DecidableEq, Repr

namespace Keyword

def all : List Keyword :=
  [.default, .state, .if, .else, .while, .do, .for, .return, .jump, .break, .continue]

def text : Keyword → String
  | .default => "default"
  | .state => "state"
  | .if => "if"
  | .else => "else"
  | .while => "while"
  | .do => "do"
  | .for => "for"
  | .return => "return"
  | .jump => "jump"
  | .break => "break"
  | .continue => "continue"

def ofText? (s : String) : Option Keyword := all.find? (·.text = s)

end Keyword

/-- The operator symbols; `.` reads a component and `@` marks a label. -/
inductive Symbol
  | increment : Symbol
  | decrement : Symbol
  | plusAssign : Symbol
  | minusAssign : Symbol
  | timesAssign : Symbol
  | divideAssign : Symbol
  | moduloAssign : Symbol
  | equal : Symbol
  | notEqual : Symbol
  | greaterEqual : Symbol
  | lessEqual : Symbol
  | shiftLeft : Symbol
  | shiftRight : Symbol
  | and : Symbol
  | or : Symbol
  | assign : Symbol
  | greater : Symbol
  | less : Symbol
  | plus : Symbol
  | minus : Symbol
  | times : Symbol
  | divide : Symbol
  | modulo : Symbol
  | not : Symbol
  | tilde : Symbol
  | bitAnd : Symbol
  | bitOr : Symbol
  | bitXor : Symbol
  | dot : Symbol
  | at : Symbol
  deriving DecidableEq, Repr

namespace Symbol

/-- Every symbol, those of two characters before those of one, so that the first one a text
starts with is the longest. -/
def all : List Symbol :=
  [.increment, .decrement, .plusAssign, .minusAssign, .timesAssign, .divideAssign, .moduloAssign,
   .equal, .notEqual, .greaterEqual, .lessEqual, .shiftLeft, .shiftRight, .and, .or,
   .assign, .greater, .less, .plus, .minus, .times, .divide, .modulo, .not, .tilde, .bitAnd,
   .bitOr, .bitXor, .dot, .at]

def chars : Symbol → List Char
  | .increment => ['+', '+']
  | .decrement => ['-', '-']
  | .plusAssign => ['+', '=']
  | .minusAssign => ['-', '=']
  | .timesAssign => ['*', '=']
  | .divideAssign => ['/', '=']
  | .moduloAssign => ['%', '=']
  | .equal => ['=', '=']
  | .notEqual => ['!', '=']
  | .greaterEqual => ['>', '=']
  | .lessEqual => ['<', '=']
  | .shiftLeft => ['<', '<']
  | .shiftRight => ['>', '>']
  | .and => ['&', '&']
  | .or => ['|', '|']
  | .assign => ['=']
  | .greater => ['>']
  | .less => ['<']
  | .plus => ['+']
  | .minus => ['-']
  | .times => ['*']
  | .divide => ['/']
  | .modulo => ['%']
  | .not => ['!']
  | .tilde => ['~']
  | .bitAnd => ['&']
  | .bitOr => ['|']
  | .bitXor => ['^']
  | .dot => ['.']
  | .at => ['@']

def binary? : Symbol → Option BinaryOp
  | .or => some .or
  | .and => some .and
  | .bitOr => some .bitOr
  | .bitXor => some .bitXor
  | .bitAnd => some .bitAnd
  | .equal => some .equal
  | .notEqual => some .notEqual
  | .less => some .lessThan
  | .lessEqual => some .lessThanEqual
  | .greater => some .greaterThan
  | .greaterEqual => some .greaterThanEqual
  | .shiftLeft => some .shiftLeft
  | .shiftRight => some .shiftRight
  | .plus => some .add
  | .minus => some .subtract
  | .times => some .multiply
  | .divide => some .divide
  | .modulo => some .modulo
  | _ => none

def assign? : Symbol → Option AssignOp
  | .assign => some .assign
  | .plusAssign => some .add
  | .minusAssign => some .subtract
  | .timesAssign => some .multiply
  | .divideAssign => some .divide
  | .moduloAssign => some .modulo
  | _ => none

def unary? : Symbol → Option UnaryOp
  | .minus => some .negate
  | .plus => some .plus
  | .not => some .not
  | .tilde => some .bitNot
  | _ => none

def step? : Symbol → Option StepOp
  | .increment => some .increment
  | .decrement => some .decrement
  | _ => none

end Symbol

inductive Delimiter
  | openBrace : Delimiter
  | closeBrace : Delimiter
  | openParen : Delimiter
  | closeParen : Delimiter
  | openBracket : Delimiter
  | closeBracket : Delimiter
  | comma : Delimiter
  | semicolon : Delimiter
  | colon : Delimiter
  deriving DecidableEq, Repr

namespace Delimiter

def all : List Delimiter :=
  [.openBrace, .closeBrace, .openParen, .closeParen, .openBracket, .closeBracket, .comma,
   .semicolon, .colon]

def char : Delimiter → Char
  | .openBrace => '\x7b'
  | .closeBrace => '\x7d'
  | .openParen => '('
  | .closeParen => ')'
  | .openBracket => '['
  | .closeBracket => ']'
  | .comma => ','
  | .semicolon => ';'
  | .colon => ':'

end Delimiter

inductive Token
  | keyword (k : Keyword) : Token
  | type (t : ValueType) : Token
  | ident (name : String) : Token
  | symbol (s : Symbol) : Token
  | delimiter (d : Delimiter) : Token
  | integer (n : Int32) : Token
  | float (x : Float) : Token
  | string (s : String) : Token
  | blanks (s : String) : Token
  | newline : Token
  | lineComment (content : String) : Token
  | blockComment (content : String) : Token
  deriving Inhabited

namespace Token

def isTrivia : Token → Bool
  | .blanks _ => true
  | .newline => true
  | .lineComment _ => true
  | .blockComment _ => true
  | _ => false

def hexText (n : Nat) : List Char := Nat.toDigits 16 n

/-- A character inside a quoted string: quotes, backslashes and the common control characters
have an escape of two characters, other characters that cannot be seen one with their number. -/
def quotedChar (visible : Char → Bool) (c : Char) : List Char :=
  match c with
  | '"' => ['\\', '"']
  | '\\' => ['\\', '\\']
  | '\n' => ['\\', 'n']
  | '\r' => ['\\', 'r']
  | '\t' => ['\\', 't']
  | '\x00' => ['\\', '0']
  | c => if visible c then [c] else '\\' :: 'u' :: '\x7b' :: hexText c.toNat ++ ['\x7d']

end Token

end PrimScript
