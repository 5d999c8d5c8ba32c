import PrimScript.Syntax.Expr
import PrimScript.Token.Basic

/-! Writing expressions as tokens, with the parentheses that their ranks ask for and no others. -/

namespace PrimScript

def BinaryOp.sign : BinaryOp → Symbol
  | .add => .plus
  | .subtract => .minus
  | .multiply => .times
  | .divide => .divide
  | .modulo => .modulo
  | .equal => .equal
  | .notEqual => .notEqual
  | .lessThan => .less
  | .greaterThan => .greater
  | .lessThanEqual => .lessEqual
  | .greaterThanEqual => .greaterEqual
  | .and => .and
  | .or => .or
  | .bitAnd => .bitAnd
  | .bitOr => .bitOr
  | .bitXor => .bitXor
  | .shiftLeft => .shiftLeft
  | .shiftRight => .shiftRight

def UnaryOp.sign : UnaryOp → Symbol
  | .negate => .minus
  | .plus => .plus
  | .not => .not
  | .bitNot => .tilde

def StepOp.sign : StepOp → Symbol
  | .increment => .increment
  | .decrement => .decrement

def AssignOp.sign : AssignOp → Symbol
  | .assign => .assign
  | .add => .plusAssign
  | .subtract => .minusAssign
  | .multiply => .timesAssign
  | .divide => .divideAssign
  | .modulo => .moduloAssign

@[simp] theorem Symbol.binary?_sign (op : BinaryOp) : op.sign.binary? = some op := by
  cases op <;> rfl

@[simp] theorem Symbol.unary?_sign (op : UnaryOp) : op.sign.unary? = some op := by
  cases op <;> rfl

@[simp] theorem Symbol.step?_sign (op : StepOp) : op.sign.step? = some op := by
  cases op <;> rfl

@[simp] theorem Symbol.assign?_sign (op : AssignOp) : op.sign.assign? = some op := by
  cases op <;> rfl

def Literal.token : Literal → Token
  | .integer n => .integer n
  | .float x => .float x
  | .string s => .string s

/-- The binary operators from the loosest to the tightest; those of a row bind alike. -/
def BinaryOp.rows : List (List BinaryOp) :=
  [[.or],
   [.and],
   [.bitOr],
   [.bitXor],
   [.bitAnd],
   [.equal, .notEqual],
   [.lessThan, .lessThanEqual, .greaterThan, .greaterThanEqual],
   [.shiftLeft, .shiftRight],
   [.add, .subtract],
   [.multiply, .divide, .modulo]]

/-- Rows are counted from `1`: an assignment is looser than them all. -/
def BinaryOp.rank (op : BinaryOp) : Nat := rows.findIdx (op ∈ ·) + 1

theorem BinaryOp.rank_eq (op : BinaryOp) : op.rank = op.level + 1 := by cases op <;> rfl

/-- How tightly an expression holds together: assignments `0`, binary expressions `1` to `10`, what
starts with an operator or a cast `11`, a step after its target `12`, all others `13`. -/
def Expr.rank : Expr → Nat
  | .assign _ _ _ => 0
  | .binary op _ _ => op.rank
  | .unary _ _ => 11
  | .cast _ _ => 11
  | .step _ before _ => if before then 11 else 12
  | _ => 13

def parenthesized (ts : List Token) : List Token :=
  .delimiter .openParen :: (ts ++ [.delimiter .closeParen])

/-- What has a rank of its own, in a place that asks for another: in parentheses when its own is
looser. -/
def grouped (wanted own : Nat) (ts : List Token) : List Token :=
  if wanted ≤ own then ts else parenthesized ts

def commaSeparated : List (List Token) → List Token
  | [] => []
  | [ts] => ts
  | ts :: rest => ts ++ .delimiter .comma :: commaSeparated rest

mutual

/-- The tokens of an expression, without parentheses around the whole.  What a component, a
subscript or a slice is taken of has rank `13`, since nothing can follow a step; the components of a
vector have the rank of shifts, since a `>` would end it. -/
def Expr.tokens : Expr → List Token
  | .literal value => [value.token]
  | .ident name => [.ident name]
  | .binary op left right =>
    grouped op.rank left.rank left.tokens ++
      .symbol op.sign :: grouped (op.rank + 1) right.rank right.tokens
  | .unary op operand => .symbol op.sign :: grouped 11 operand.rank operand.tokens
  | .step op true target => .symbol op.sign :: target.tokens
  | .step op false target => target.tokens ++ [.symbol op.sign]
  | .call name args => .ident name :: parenthesized (commaSeparated (Expr.eachTokens args))
  | .vector x y z =>
    .symbol .less ::
      (commaSeparated
        [grouped 8 x.rank x.tokens, grouped 8 y.rank y.tokens, grouped 8 z.rank z.tokens] ++
        [.symbol .greater])
  | .rotation x y z s =>
    .symbol .less ::
      (commaSeparated
        [grouped 8 x.rank x.tokens, grouped 8 y.rank y.tokens, grouped 8 z.rank z.tokens,
          grouped 8 s.rank s.tokens] ++
        [.symbol .greater])
  | .list items =>
    .delimiter .openBracket ::
      (commaSeparated (Expr.eachTokens items) ++ [.delimiter .closeBracket])
  | .component of axis =>
    grouped 13 of.rank of.tokens ++ [.symbol .dot, .ident axis.name]
  | .subscript list index =>
    grouped 13 list.rank list.tokens ++
      .delimiter .openBracket :: (index.tokens ++ [.delimiter .closeBracket])
  | .slice list start stop =>
    grouped 13 list.rank list.tokens ++
      .delimiter .openBracket ::
        (start.tokens ++ .delimiter .colon :: (stop.tokens ++ [.delimiter .closeBracket]))
  | .cast type operand =>
    .delimiter .openParen :: .type type :: .delimiter .closeParen ::
      grouped 11 operand.rank operand.tokens
  | .assign target op value => target.tokens ++ .symbol op.sign :: value.tokens

def Target.tokens : Target → List Token
  | .variable name => [.ident name]
  | .component name axis => [.ident name, .symbol .dot, .ident axis.name]
  | .element name index =>
    .ident name :: .delimiter .openBracket :: (index.tokens ++ [.delimiter .closeBracket])

def Expr.eachTokens : List Expr → List (List Token)
  | [] => []
  | e :: es => e.tokens :: Expr.eachTokens es

end

def Expr.render (e : Expr) (rank : Nat) : List Token := grouped rank e.rank e.tokens

@[simp] theorem Expr.eachTokens_eq_map (es : List Expr) :
    Expr.eachTokens es = es.map Expr.tokens := by
  induction es with
  | nil => simp [Expr.eachTokens]
  | cons e es ih => simp [Expr.eachTokens, ih]

def Target.expr : Target → Expr
  | .variable name => .ident name
  | .component name axis => .component (.ident name) axis
  | .element name index => .subscript (.ident name) index

end PrimScript
