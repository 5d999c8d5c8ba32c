import PrimScript.Syntax.Parse.Expr

/-! Parsing statements.  An `else` belongs to the nearest `if` before it. -/

namespace PrimScript

namespace Parse

def condition (fuel : Nat) (ts : List Lexeme) : Parse (Parsed Expr) := do
  let rest ← delimiter .openParen ts
  let (e, rest) ← expression fuel rest
  let rest ← delimiter .closeParen rest
  .ok (e, rest)

def initializer (fuel : Nat) (ts : List Lexeme) : Parse (Parsed (Option Expr)) :=
  match afterSymbol? .assign ts with
  | some rest => do
    let (e, rest) ← expression fuel rest
    .ok (some e, rest)
  | none => .ok (none, ts)

def stateName (ts : List Lexeme) : Parse (Parsed String) :=
  match afterKeyword? .default ts with
  | some rest => .ok (defaultState, rest)
  | none => identifier ts

def namedEnd (name : List Lexeme → Parse (Parsed String)) (ts : List Lexeme) :
    Parse (Parsed String) := do
  let (n, rest) ← name ts
  let rest ← delimiter .semicolon rest
  .ok (n, rest)

def forHead (fuel : Nat) (ts : List Lexeme) :
    Parse (Parsed (List Expr × Option Expr × List Expr)) := do
  let rest ← delimiter .openParen ts
  let (init, rest) ← items fuel .semicolon rest
  let rest ← delimiter .semicolon rest
  let (test, rest) ←
    match after? .semicolon rest with
    | some _ => .ok (none, rest)
    | none => do
      let (e, rest) ← expression fuel rest
      .ok (some e, rest)
  let rest ← delimiter .semicolon rest
  let (step, rest) ← items fuel .closeParen rest
  let rest ← delimiter .closeParen rest
  .ok ((init, test, step), rest)

def ofExpr : Expr → Stmt
  | .assign place op value => .assign place op value
  | e => .expr e

def expressionStatement (fuel : Nat) (ts : List Lexeme) : Parse (Parsed Stmt) := do
  let (e, rest) ← expression fuel ts
  let rest ← delimiter .semicolon rest
  .ok (ofExpr e, rest)

def declaration (fuel : Nat) (type : ValueType) (ts : List Lexeme) : Parse (Parsed Stmt) := do
  let (name, rest) ← identifier ts
  let (init, rest) ← initializer fuel rest
  let rest ← delimiter .semicolon rest
  .ok (.declare name type init, rest)

mutual

def statement : (fuel : Nat) → List Lexeme → Parse (Parsed Stmt)
  | 0, ts => .error ⟨.nesting, ts⟩
  | _ + 1, [] => .error ⟨.statement, []⟩
  | fuel + 1, l :: rest =>
    match l.token with
    | .delimiter .semicolon => .ok (.empty, rest)
    | .delimiter .openBrace => do
      let (body, rest) ← statements fuel rest
      .ok (.block body, rest)
    | .type t => declaration fuel t rest
    | .keyword .if => do
      let (test, rest) ← condition fuel rest
      let (thenBranch, rest) ← statement fuel rest
      match afterKeyword? .else rest with
      | some rest =>
        let (elseBranch, rest) ← statement fuel rest
        .ok (.ite test thenBranch (some elseBranch), rest)
      | none => .ok (.ite test thenBranch none, rest)
    | .keyword .while => do
      let (test, rest) ← condition fuel rest
      let (body, rest) ← statement fuel rest
      .ok (.while test body, rest)
    | .keyword .do => do
      let (body, rest) ← statement fuel rest
      match afterKeyword? .while rest with
      | none => .error ⟨.whileAfterDo, rest⟩
      | some rest =>
        let (test, rest) ← condition fuel rest
        let rest ← delimiter .semicolon rest
        .ok (.doWhile body test, rest)
    | .keyword .for => do
      let ((init, test, step), rest) ← forHead fuel rest
      let (body, rest) ← statement fuel rest
      .ok (.for init test step body, rest)
    | .keyword .return =>
      match after? .semicolon rest with
      | some rest => .ok (.return none, rest)
      | none => do
        let (value, rest) ← expression fuel rest
        let rest ← delimiter .semicolon rest
        .ok (.return (some value), rest)
    | .keyword .state => do
      let (name, rest) ← namedEnd stateName rest
      .ok (.state name, rest)
    | .keyword .jump => do
      let (name, rest) ← namedEnd identifier rest
      .ok (.jump name, rest)
    | .symbol .at => do
      let (name, rest) ← namedEnd identifier rest
      .ok (.label name, rest)
    | .keyword .break => do
      let rest ← delimiter .semicolon rest
      .ok (.break, rest)
    | .keyword .continue => do
      let rest ← delimiter .semicolon rest
      .ok (.continue, rest)
    | _ => expressionStatement fuel (l :: rest)

def statements : (fuel : Nat) → List Lexeme → Parse (Parsed (List Stmt))
  | 0, ts => .error ⟨.nesting, ts⟩
  | fuel + 1, ts =>
    match after? .closeBrace ts with
    | some rest => .ok ([], rest)
    | none =>
      if ts.isEmpty then .error ⟨.delimiter .closeBrace, ts⟩
      else do
        let (s, rest) ← statement fuel ts
        let (body, rest) ← statements fuel rest
        .ok (s :: body, rest)

end

def block (fuel : Nat) (ts : List Lexeme) : Parse (Parsed (List Stmt)) := do
  let rest ← delimiter .openBrace ts
  statements fuel rest

end Parse

def Stmt.parse (ts : List Lexeme) : Parse (Parsed Stmt) := Parse.statement (Parse.steps ts) ts

end PrimScript
