import PrimScript.Syntax.Script
import PrimScript.Token.Lexer

/-! What all parsers share: the faults they find, and reading single lexemes.  A parser returns what
it read and the lexemes after it; lexemes are without trivia.  Parsers that recurse do so on an
allowance of steps, and `Parse.steps` of the lexemes is more than any of them needs. -/

namespace PrimScript

inductive Definition
  | global : Definition
  | function : Definition
  | state : Definition
  | handler : Definition
  deriving DecidableEq, Repr

def Definition.word : Definition → String
  | .global => "global"
  | .function => "function"
  | .state => "state"
  | .handler => "handler"

inductive Fault
  | delimiter (d : Delimiter) : Fault
  | identifier : Fault
  | definition : Fault
  | statement : Fault
  | expression : Fault
  | paramType : Fault
  | whileAfterDo : Fault
  | axis : Fault
  | closingAngle : Fault
  | componentCount : Fault
  | componentTarget : Fault
  | elementTarget : Fault
  | target : Fault
  | duplicate (what : Definition) (name : String) : Fault
  /-- The allowance of steps is used up. -/
  | nesting : Fault
  deriving DecidableEq, Repr

def Fault.message : Fault → String
  | .delimiter d => s!"expected `{String.singleton d.char}`"
  | .identifier => "expected identifier"
  | .definition => "expected global variable, function or state definition"
  | .statement => "expected statement"
  | .expression => "expected expression"
  | .paramType => "expected parameter type"
  | .whileAfterDo => "expected `while` after do body"
  | .axis => "expected component x, y, z or s"
  | .closingAngle => "expected `>` closing vector or rotation"
  | .componentCount => "vector needs 3 components, rotation needs 4"
  | .componentTarget => "component assignment needs a variable"
  | .elementTarget => "element assignment needs a list variable"
  | .target => "left side of assignment is not assignable"
  | .duplicate what name => s!"duplicate {what.word} `{name}`"
  | .nesting => "nested too deeply"

structure SyntaxError where
  fault : Fault
  rest : List Lexeme

namespace SyntaxError

def atEnd (e : SyntaxError) : Bool := e.rest.isEmpty

def message (e : SyntaxError) : String :=
  match e.rest with
  | [] => s!"Unexpected EOF: {e.fault.message}"
  | l :: _ =>
    s!"Parse error at {l.start.text}: {e.fault.message} (found `{l.token.display}`)"

end SyntaxError

abbrev Parse := Except SyntaxError

abbrev Parsed (α : Type) := α × List Lexeme

namespace Parse

def after? (d : Delimiter) : List Lexeme → Option (List Lexeme)
  | l :: rest =>
    match l.token with
    | .delimiter e => if e = d then some rest else none
    | _ => none
  | [] => none

def afterKeyword? (k : Keyword) : List Lexeme → Option (List Lexeme)
  | l :: rest =>
    match l.token with
    | .keyword e => if e = k then some rest else none
    | _ => none
  | [] => none

def symbol? : List Lexeme → Option (Symbol × List Lexeme)
  | l :: rest =>
    match l.token with
    | .symbol s => some (s, rest)
    | _ => none
  | [] => none

def afterSymbol? (s : Symbol) (ts : List Lexeme) : Option (List Lexeme) :=
  match symbol? ts with
  | some (t, rest) => if t = s then some rest else none
  | none => none

def type? : List Lexeme → Option (ValueType × List Lexeme)
  | l :: rest =>
    match l.token with
    | .type t => some (t, rest)
    | _ => none
  | [] => none

def delimiter (d : Delimiter) (ts : List Lexeme) : Parse (List Lexeme) :=
  match after? d ts with
  | some rest => .ok rest
  | none => .error ⟨.delimiter d, ts⟩

def identifier (ts : List Lexeme) : Parse (Parsed String) :=
  match ts with
  | [] => .error ⟨.identifier, ts⟩
  | l :: rest =>
    match l.token with
    | .ident name => .ok (name, rest)
    | _ => .error ⟨.identifier, ts⟩

def binaryAt? (level : Nat) (ts : List Lexeme) : Option (BinaryOp × List Lexeme) := do
  let (s, rest) ← symbol? ts
  let op ← s.binary?
  if op.level = level then some (op, rest) else none

def assignAt? (ts : List Lexeme) : Option (AssignOp × List Lexeme) := do
  let (s, rest) ← symbol? ts
  let op ← s.assign?
  some (op, rest)

def unaryAt? (ts : List Lexeme) : Option (UnaryOp × List Lexeme) := do
  let (s, rest) ← symbol? ts
  let op ← s.unary?
  some (op, rest)

def stepAt? (ts : List Lexeme) : Option (StepOp × List Lexeme) := do
  let (s, rest) ← symbol? ts
  let op ← s.step?
  some (op, rest)

def castAt? (ts : List Lexeme) : Option (ValueType × List Lexeme) := do
  let rest ← after? .openParen ts
  let (t, rest) ← type? rest
  let rest ← after? .closeParen rest
  some (t, rest)

/-- Steps enough for any parser on the lexemes: one lexeme is reached through fewer than thirty-two
of them. -/
def steps (ts : List Lexeme) : Nat := 32 * (ts.length + 2)

end Parse

end PrimScript
