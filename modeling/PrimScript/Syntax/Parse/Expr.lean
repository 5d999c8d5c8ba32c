import PrimScript.Syntax.Parse.Basic

/-! Parsing expressions.  Binary operators have ten levels; assignments bind most loosely and group
to the right, the binary operators group to the left. -/

namespace PrimScript

namespace Parse

/-- The place an expression denotes; `ts` is where a fault counts as found. -/
def target (ts : List Lexeme) : Expr → Parse Target
  | .ident name => .ok (.variable name)
  | .component (.ident name) axis => .ok (.component name axis)
  | .component _ _ => .error ⟨.componentTarget, ts⟩
  | .subscript (.ident name) index => .ok (.element name index)
  | .subscript _ _ => .error ⟨.elementTarget, ts⟩
  | _ => .error ⟨.target, ts⟩

/-- The level that the components of a vector are read at, above the relations: a `>` ends the
vector. -/
def componentLevel : Nat := 7

/-- The vector or rotation with the given components; `ts` are the lexemes after it. -/
def vectorOf (parts : List Expr) (ts : List Lexeme) : Parse (Parsed Expr) :=
  match parts with
  | [x, y, z] => .ok (.vector x y z, ts)
  | [x, y, z, s] => .ok (.rotation x y z s, ts)
  | _ => .error ⟨.componentCount, ts⟩

mutual

def expression : (fuel : Nat) → List Lexeme → Parse (Parsed Expr)
  | 0, ts => .error ⟨.nesting, ts⟩
  | fuel + 1, ts => do
    let (left, rest) ← binary fuel 0 ts
    match assignAt? rest with
    | none => .ok (left, rest)
    | some (op, rest) =>
      let place ← target ts left
      let (value, rest) ← expression fuel rest
      .ok (.assign place op value, rest)

def binary : (fuel level : Nat) → List Lexeme → Parse (Parsed Expr)
  | 0, _, ts => .error ⟨.nesting, ts⟩
  | fuel + 1, level, ts =>
    if level < 10 then do
      let (left, rest) ← binary fuel (level + 1) ts
      chain fuel level left rest
    else unary fuel ts

def chain : (fuel level : Nat) → Expr → List Lexeme → Parse (Parsed Expr)
  | 0, _, _, ts => .error ⟨.nesting, ts⟩
  | fuel + 1, level, left, ts =>
    match binaryAt? level ts with
    | none => .ok (left, ts)
    | some (op, rest) => do
      let (right, rest) ← binary fuel (level + 1) rest
      chain fuel level (.binary op left right) rest

def unary : (fuel : Nat) → List Lexeme → Parse (Parsed Expr)
  | 0, ts => .error ⟨.nesting, ts⟩
  | fuel + 1, ts =>
    match unaryAt? ts with
    | some (op, rest) => do
      let (operand, rest) ← unary fuel rest
      .ok (.unary op operand, rest)
    | none =>
      match stepAt? ts with
      | some (op, rest) => do
        let (operand, after) ← postfixed fuel rest
        let place ← target rest operand
        .ok (.step op true place, after)
      | none =>
        match castAt? ts with
        | some (type, rest) => do
          let (operand, rest) ← unary fuel rest
          .ok (.cast type operand, rest)
        | none => postfixed fuel ts

/-- A primary expression with the components, subscripts and steps written after it. -/
def postfixed : (fuel : Nat) → List Lexeme → Parse (Parsed Expr)
  | 0, ts => .error ⟨.nesting, ts⟩
  | fuel + 1, ts => do
    let (e, rest) ← primary fuel ts
    suffixes fuel e rest

def suffixes : (fuel : Nat) → Expr → List Lexeme → Parse (Parsed Expr)
  | 0, _, ts => .error ⟨.nesting, ts⟩
  | fuel + 1, e, ts =>
    match afterSymbol? .dot ts with
    | some rest => do
      let (name, after) ← identifier rest
      match Axis.ofName? name with
      | none => .error ⟨.axis, rest⟩
      | some axis => suffixes fuel (.component e axis) after
    | none =>
      match after? .openBracket ts with
      | some rest => do
        let (first, rest) ← expression fuel rest
        match after? .colon rest with
        | some rest =>
          let (last, rest) ← expression fuel rest
          let rest ← delimiter .closeBracket rest
          suffixes fuel (.slice e first last) rest
        | none =>
          let rest ← delimiter .closeBracket rest
          suffixes fuel (.subscript e first) rest
      | none =>
        match stepAt? ts with
        | some (op, rest) => do
          let place ← target ts e
          .ok (.step op false place, rest)
        | none => .ok (e, ts)

def primary : (fuel : Nat) → List Lexeme → Parse (Parsed Expr)
  | 0, ts => .error ⟨.nesting, ts⟩
  | _ + 1, [] => .error ⟨.expression, []⟩
  | fuel + 1, l :: rest =>
    match l.token with
    | .integer n => .ok (.literal (.integer n), rest)
    | .float x => .ok (.literal (.float x), rest)
    | .string s => .ok (.literal (.string s), rest)
    | .ident name =>
      match after? .openParen rest with
      | some rest => do
        let (args, rest) ← items fuel .closeParen rest
        let rest ← delimiter .closeParen rest
        .ok (.call name args, rest)
      | none => .ok (.ident name, rest)
    | .delimiter .openParen => do
      let (e, rest) ← expression fuel rest
      let rest ← delimiter .closeParen rest
      .ok (e, rest)
    | .delimiter .openBracket => do
      let (es, rest) ← items fuel .closeBracket rest
      let rest ← delimiter .closeBracket rest
      .ok (.list es, rest)
    | .symbol .less => do
      let (parts, rest) ← components fuel 3 rest
      vectorOf parts rest
    | _ => .error ⟨.expression, l :: rest⟩

/-- Expressions separated by commas; none when the lexemes start with `stop`. -/
def items : (fuel : Nat) → (stop : Delimiter) → List Lexeme → Parse (Parsed (List Expr))
  | 0, _, ts => .error ⟨.nesting, ts⟩
  | fuel + 1, stop, ts =>
    match after? stop ts with
    | some _ => .ok ([], ts)
    | none => someItems fuel ts

def someItems : (fuel : Nat) → List Lexeme → Parse (Parsed (List Expr))
  | 0, ts => .error ⟨.nesting, ts⟩
  | fuel + 1, ts => do
    let (e, rest) ← expression fuel ts
    match after? .comma rest with
    | some rest =>
      let (es, rest) ← someItems fuel rest
      .ok (e :: es, rest)
    | none => .ok ([e], rest)

/-- The components of a vector up to its `>`; `more` may follow the first one. -/
def components : (fuel more : Nat) → List Lexeme → Parse (Parsed (List Expr))
  | 0, _, ts => .error ⟨.nesting, ts⟩
  | fuel + 1, more, ts => do
    let (e, rest) ← binary fuel componentLevel ts
    match more, after? .comma rest with
    | more + 1, some rest =>
      let (es, rest) ← components fuel more rest
      .ok (e :: es, rest)
    | _, _ =>
      match afterSymbol? .greater rest with
      | some rest => .ok ([e], rest)
      | none => .error ⟨.closingAngle, rest⟩

end

end Parse

def Expr.parse (ts : List Lexeme) : Parse (Parsed Expr) := Parse.expression (Parse.steps ts) ts

end PrimScript
