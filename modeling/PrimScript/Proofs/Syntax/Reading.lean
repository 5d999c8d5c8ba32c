import PrimScript.Syntax.Parse.Expr

/-! How the parsers of expressions go on, one rule for each way a parser has: what it reads once the
steps allowed to it are enough. -/

namespace PrimScript.Parse

def Settles {α : Type} (n : Nat) (parser : Nat → Parse α) (r : α) : Prop :=
  ∀ fuel, n ≤ fuel → parser fuel = .ok r

section
variable {α : Type} {parser : Nat → Parse α} {r : α} {m n : Nat}

theorem Settles.mono (h : Settles m parser r) (hmn : m ≤ n) : Settles n parser r :=
  fun fuel hn => h fuel (Nat.le_trans hmn hn)

theorem Settles.succ (h : ∀ fuel, n ≤ fuel → parser (fuel + 1) = .ok r) :
    Settles (n + 1) parser r := by
  intro fuel hn
  obtain ⟨fuel, rfl⟩ : ∃ k, fuel = k + 1 := ⟨fuel - 1, by omega⟩
  exact h fuel (by omega)

end

variable {ts rest after : List Lexeme} {e a b c : Expr} {es : List Expr} {k m n l : Nat}
  {r : Parsed Expr}

@[local simp]
theorem ok_bind {α β : Type} (a : α) (f : α → Parse β) : (Except.ok a >>= f : Parse β) = f a := rfl

attribute [local simp] expression binary chain unary postfixed suffixes primary items someItems
  components

theorem chain_stop (none_follows : binaryAt? l ts = none) :
    Settles 1 (fun fuel => chain fuel l e ts) (e, ts) :=
  Settles.succ fun fuel _ => by simp [none_follows]

theorem chain_step {op : BinaryOp} (follows : binaryAt? l ts = some (op, rest))
    (right : Settles m (fun fuel => binary fuel (l + 1) rest) (b, after))
    (more : Settles n (fun fuel => chain fuel l (.binary op a b) after) r) :
    Settles (max m n + 1) (fun fuel => chain fuel l a ts) r :=
  Settles.succ fun fuel h => by
    simp [follows, right fuel (by omega), more fuel (by omega)]

theorem binary_step (hl : l < 10) (left : Settles m (fun fuel => binary fuel (l + 1) ts) (a, rest))
    (more : Settles n (fun fuel => chain fuel l a rest) r) :
    Settles (max m n + 1) (fun fuel => binary fuel l ts) r :=
  Settles.succ fun fuel h => by
    simp [if_pos hl, left fuel (by omega), more fuel (by omega)]

theorem binary_unary (hl : 10 ≤ l) (operand : Settles n (fun fuel => unary fuel ts) r) :
    Settles (n + 1) (fun fuel => binary fuel l ts) r :=
  Settles.succ fun fuel h => by
    simp [if_neg (Nat.not_lt.mpr hl), operand fuel h]

theorem expression_binary (left : Settles n (fun fuel => binary fuel 0 ts) (e, rest))
    (no_assignment : assignAt? rest = none) :
    Settles (n + 1) (fun fuel => expression fuel ts) (e, rest) :=
  Settles.succ fun fuel h => by
    simp [left fuel h, no_assignment]

theorem expression_assign {place : Target} {op : AssignOp} {mid : List Lexeme}
    (left : Settles m (fun fuel => binary fuel 0 ts) (a, mid))
    (assignment : assignAt? mid = some (op, rest)) (denotes : target ts a = .ok place)
    (right : Settles n (fun fuel => expression fuel rest) (b, after)) :
    Settles (max m n + 1) (fun fuel => expression fuel ts) (.assign place op b, after) :=
  Settles.succ fun fuel h => by
    simp [left fuel (by omega), assignment, denotes, right fuel (by omega)]

theorem unary_operator {op : UnaryOp} (starts : unaryAt? ts = some (op, rest))
    (operand : Settles n (fun fuel => unary fuel rest) (e, after)) :
    Settles (n + 1) (fun fuel => unary fuel ts) (.unary op e, after) :=
  Settles.succ fun fuel h => by
    simp [starts, operand fuel h]

theorem unary_step {op : StepOp} {place : Target} (no_operator : unaryAt? ts = none)
    (starts : stepAt? ts = some (op, rest))
    (operand : Settles n (fun fuel => postfixed fuel rest) (e, after))
    (denotes : target rest e = .ok place) :
    Settles (n + 1) (fun fuel => unary fuel ts) (.step op true place, after) :=
  Settles.succ fun fuel h => by
    simp [no_operator, starts, operand fuel h, denotes]

theorem unary_cast {type : ValueType} (no_operator : unaryAt? ts = none)
    (no_step : stepAt? ts = none) (starts : castAt? ts = some (type, rest))
    (operand : Settles n (fun fuel => unary fuel rest) (e, after)) :
    Settles (n + 1) (fun fuel => unary fuel ts) (.cast type e, after) :=
  Settles.succ fun fuel h => by
    simp [no_operator, no_step, starts, operand fuel h]

theorem unary_postfixed (no_operator : unaryAt? ts = none) (no_step : stepAt? ts = none)
    (no_cast : castAt? ts = none) (operand : Settles n (fun fuel => postfixed fuel ts) r) :
    Settles (n + 1) (fun fuel => unary fuel ts) r :=
  Settles.succ fun fuel h => by
    simp [no_operator, no_step, no_cast, operand fuel h]

theorem postfixed_primary (first : Settles m (fun fuel => primary fuel ts) (e, rest))
    (more : Settles n (fun fuel => suffixes fuel e rest) r) :
    Settles (max m n + 1) (fun fuel => postfixed fuel ts) r :=
  Settles.succ fun fuel h => by
    simp [first fuel (by omega), more fuel (by omega)]

theorem suffixes_stop (no_dot : afterSymbol? .dot ts = none)
    (no_bracket : after? .openBracket ts = none) (no_step : stepAt? ts = none) :
    Settles 1 (fun fuel => suffixes fuel e ts) (e, ts) :=
  Settles.succ fun fuel _ => by simp [no_dot, no_bracket, no_step]

theorem suffixes_component {name : String} {axis : Axis} {mid : List Lexeme}
    (dot : afterSymbol? .dot ts = some mid) (word : identifier mid = .ok (name, rest))
    (names : Axis.ofName? name = some axis)
    (more : Settles n (fun fuel => suffixes fuel (.component e axis) rest) r) :
    Settles (n + 1) (fun fuel => suffixes fuel e ts) r :=
  Settles.succ fun fuel h => by
    simp [dot, word, names, more fuel h]

theorem suffixes_subscript {mid : List Lexeme} (no_dot : afterSymbol? .dot ts = none)
    (bracket : after? .openBracket ts = some mid)
    (index : Settles m (fun fuel => expression fuel mid) (a, rest))
    (no_colon : after? .colon rest = none) (closes : delimiter .closeBracket rest = .ok after)
    (more : Settles n (fun fuel => suffixes fuel (.subscript e a) after) r) :
    Settles (max m n + 1) (fun fuel => suffixes fuel e ts) r :=
  Settles.succ fun fuel h => by
    simp [no_dot, bracket, index fuel (by omega), no_colon, closes, more fuel (by omega)]

theorem suffixes_slice {mid mid' rest' : List Lexeme} (no_dot : afterSymbol? .dot ts = none)
    (bracket : after? .openBracket ts = some mid)
    (start : Settles m (fun fuel => expression fuel mid) (a, rest))
    (colon : after? .colon rest = some mid')
    (stop : Settles k (fun fuel => expression fuel mid') (b, rest'))
    (closes : delimiter .closeBracket rest' = .ok after)
    (more : Settles n (fun fuel => suffixes fuel (.slice e a b) after) r) :
    Settles (max (max k m) n + 1) (fun fuel => suffixes fuel e ts) r :=
  Settles.succ fun fuel h => by
    simp [no_dot, bracket, start fuel (by omega), colon, stop fuel (by omega), closes, more fuel (by omega)]

theorem suffixes_step {op : StepOp} {place : Target} (no_dot : afterSymbol? .dot ts = none)
    (no_bracket : after? .openBracket ts = none) (step : stepAt? ts = some (op, rest))
    (denotes : target ts e = .ok place) :
    Settles 1 (fun fuel => suffixes fuel e ts) (.step op false place, rest) :=
  Settles.succ fun fuel _ => by
    simp [no_dot, no_bracket, step, denotes]

variable {l : Lexeme}

theorem primary_ident {name : String} (word : l.token = .ident name)
    (no_call : after? .openParen rest = none) :
    Settles 1 (fun fuel => primary fuel (l :: rest)) (.ident name, rest) :=
  Settles.succ fun fuel _ => by simp [word, no_call]

theorem primary_call {name : String} {mid mid' : List Lexeme} (word : l.token = .ident name)
    (opens : after? .openParen rest = some mid)
    (args : Settles n (fun fuel => items fuel .closeParen mid) (es, mid'))
    (closes : delimiter .closeParen mid' = .ok after) :
    Settles (n + 1) (fun fuel => primary fuel (l :: rest)) (.call name es, after) :=
  Settles.succ fun fuel h => by
    simp [word, opens, args fuel h, closes]

theorem primary_parenthesized {mid : List Lexeme} (opens : l.token = .delimiter .openParen)
    (inner : Settles n (fun fuel => expression fuel rest) (e, mid))
    (closes : delimiter .closeParen mid = .ok after) :
    Settles (n + 1) (fun fuel => primary fuel (l :: rest)) (e, after) :=
  Settles.succ fun fuel h => by
    simp [opens, inner fuel h, closes]

theorem primary_list {mid : List Lexeme} (opens : l.token = .delimiter .openBracket)
    (inner : Settles n (fun fuel => items fuel .closeBracket rest) (es, mid))
    (closes : delimiter .closeBracket mid = .ok after) :
    Settles (n + 1) (fun fuel => primary fuel (l :: rest)) (.list es, after) :=
  Settles.succ fun fuel h => by
    simp [opens, inner fuel h, closes]

theorem primary_vector {mid : List Lexeme} (opens : l.token = .symbol .less)
    (parts : Settles n (fun fuel => components fuel 3 rest) (es, mid))
    (forms : vectorOf es mid = .ok r) :
    Settles (n + 1) (fun fuel => primary fuel (l :: rest)) r :=
  Settles.succ fun fuel h => by
    simp [opens, parts fuel h, forms]

theorem items_none {stop : Delimiter} (closes : after? stop ts = some rest) :
    Settles 1 (fun fuel => items fuel stop ts) ([], ts) :=
  Settles.succ fun fuel _ => by simp [closes]

theorem items_some {stop : Delimiter} {r : Parsed (List Expr)} (begins : after? stop ts = none)
    (some_items : Settles n (fun fuel => someItems fuel ts) r) :
    Settles (n + 1) (fun fuel => items fuel stop ts) r :=
  Settles.succ fun fuel h => by simp [begins, some_items fuel h]

theorem someItems_last (item : Settles n (fun fuel => expression fuel ts) (e, rest))
    (no_comma : after? .comma rest = none) :
    Settles (n + 1) (fun fuel => someItems fuel ts) ([e], rest) :=
  Settles.succ fun fuel h => by
    simp [item fuel h, no_comma]

theorem someItems_more {mid : List Lexeme}
    (item : Settles m (fun fuel => expression fuel ts) (e, mid))
    (comma : after? .comma mid = some rest)
    (more : Settles n (fun fuel => someItems fuel rest) (es, after)) :
    Settles (max m n + 1) (fun fuel => someItems fuel ts) (e :: es, after) :=
  Settles.succ fun fuel h => by
    simp [item fuel (by omega), comma, more fuel (by omega)]

theorem components_last {more : Nat}
    (part : Settles n (fun fuel => binary fuel componentLevel ts) (e, rest))
    (no_comma : after? .comma rest = none) (closes : afterSymbol? .greater rest = some after) :
    Settles (n + 1) (fun fuel => components fuel more ts) ([e], after) :=
  Settles.succ fun fuel h => by
    cases more <;> simp [part fuel h, no_comma, closes]

theorem components_more {more : Nat} {mid : List Lexeme}
    (part : Settles m (fun fuel => binary fuel componentLevel ts) (e, mid))
    (comma : after? .comma mid = some rest)
    (others : Settles n (fun fuel => components fuel more rest) (es, after)) :
    Settles (max m n + 1) (fun fuel => components fuel (more + 1) ts) (e :: es, after) :=
  Settles.succ fun fuel h => by
    simp [part fuel (by omega), comma, others fuel (by omega)]

end PrimScript.Parse
