import PrimScript.Syntax.Parse.Script

/-! Parsers look at tokens and not at places.  Lexemes that are put elsewhere, with the tokens they
have, are read as before, and a fault is found at the same one of them. -/

namespace PrimScript

structure Relocation where
  move : Lexeme → Lexeme
  token_move (l : Lexeme) : (move l).token = l.token

def SyntaxError.move (f : Relocation) (e : SyntaxError) : SyntaxError :=
  ⟨e.fault, e.rest.map f.move⟩

def Parsed.move {α : Type} (f : Relocation) (r : Parsed α) : Parsed α := (r.1, r.2.map f.move)

namespace Parse

variable {α β : Type} {f : Relocation} {fuel : Nat} {ts : List Lexeme}

def move (f : Relocation) (x : Parse (Parsed α)) : Parse (Parsed α) :=
  (x.map (·.move f)).mapError (·.move f)

/-- The parser reads lexemes that are put elsewhere as before. -/
def Placeless (f : Relocation) (parser : List Lexeme → Parse (Parsed α)) : Prop :=
  ∀ ts, parser (ts.map f.move) = move f (parser ts)

theorem Placeless.bind {parser : List Lexeme → Parse (Parsed α)} (h : Placeless f parser)
    {k k' : Parsed α → Parse (Parsed β)}
    (hk : ∀ a rest, k' (a, rest.map f.move) = move f (k (a, rest))) :
    (parser (ts.map f.move) >>= k') = move f (parser ts >>= k) := by
  rw [h ts]
  cases parser ts with
  | error e => rfl
  | ok r => exact hk r.1 r.2

theorem mapError_bind (x : Parse α) {k k' : α → Parse (Parsed β)} (hk : ∀ a, k' a = move f (k a)) :
    (x.mapError (·.move f) >>= k') = move f (x >>= k) := by
  cases x with
  | error e => rfl
  | ok a => exact hk a

theorem after?_map (d : Delimiter) (ts : List Lexeme) :
    after? d (ts.map f.move) = (after? d ts).map (·.map f.move) := by
  cases ts with
  | nil => rfl
  | cons l ts =>
    rw [List.map_cons, after?, after?, f.token_move]
    split
    · split <;> rfl
    · rfl

theorem afterKeyword?_map (k : Keyword) (ts : List Lexeme) :
    afterKeyword? k (ts.map f.move) = (afterKeyword? k ts).map (·.map f.move) := by
  cases ts with
  | nil => rfl
  | cons l ts =>
    rw [List.map_cons, afterKeyword?, afterKeyword?, f.token_move]
    split
    · split <;> rfl
    · rfl

theorem symbol?_map (ts : List Lexeme) :
    symbol? (ts.map f.move) = (symbol? ts).map (Parsed.move f) := by
  cases ts with
  | nil => rfl
  | cons l ts =>
    rw [List.map_cons, symbol?, symbol?, f.token_move]
    split <;> rfl

theorem type?_map (ts : List Lexeme) : type? (ts.map f.move) = (type? ts).map (Parsed.move f) := by
  cases ts with
  | nil => rfl
  | cons l ts =>
    rw [List.map_cons, type?, type?, f.token_move]
    split <;> rfl

theorem afterSymbol?_map (s : Symbol) (ts : List Lexeme) :
    afterSymbol? s (ts.map f.move) = (afterSymbol? s ts).map (·.map f.move) := by
  rw [afterSymbol?, afterSymbol?, symbol?_map]
  cases symbol? ts with
  | none => rfl
  | some r =>
    dsimp only [Option.map_some, Parsed.move]
    split <;> rfl

theorem symbol?_bind {k k' : Symbol × List Lexeme → Option (Parsed α)}
    (hk : ∀ s rest, k' (s, rest.map f.move) = (k (s, rest)).map (Parsed.move f)) (ts : List Lexeme) :
    (symbol? (ts.map f.move) >>= k') = (symbol? ts >>= k).map (Parsed.move f) := by
  rw [symbol?_map]
  cases symbol? ts with
  | none => rfl
  | some r => exact hk r.1 r.2

theorem binaryAt?_map (level : Nat) (ts : List Lexeme) :
    binaryAt? level (ts.map f.move) = (binaryAt? level ts).map (Parsed.move f) := by
  refine symbol?_bind (fun s rest => ?_) ts
  dsimp only
  cases s.binary? with
  | none => rfl
  | some op =>
    dsimp only [Option.bind_eq_bind, Option.bind_some]
    split <;> rfl

theorem assignAt?_map (ts : List Lexeme) :
    assignAt? (ts.map f.move) = (assignAt? ts).map (Parsed.move f) := by
  refine symbol?_bind (fun s rest => ?_) ts
  dsimp only
  cases s.assign? <;> rfl

theorem unaryAt?_map (ts : List Lexeme) :
    unaryAt? (ts.map f.move) = (unaryAt? ts).map (Parsed.move f) := by
  refine symbol?_bind (fun s rest => ?_) ts
  dsimp only
  cases s.unary? <;> rfl

theorem stepAt?_map (ts : List Lexeme) :
    stepAt? (ts.map f.move) = (stepAt? ts).map (Parsed.move f) := by
  refine symbol?_bind (fun s rest => ?_) ts
  dsimp only
  cases s.step? <;> rfl

theorem castAt?_map (ts : List Lexeme) :
    castAt? (ts.map f.move) = (castAt? ts).map (Parsed.move f) := by
  rw [castAt?, castAt?, after?_map]
  cases after? .openParen ts with
  | none => rfl
  | some rest =>
    dsimp only [Option.map_some, Option.bind_eq_bind, Option.bind_some]
    rw [type?_map]
    cases type? rest with
    | none => rfl
    | some r =>
      dsimp only [Option.map_some, Parsed.move, Option.bind_some]
      rw [after?_map]
      cases after? .closeParen r.2 <;> rfl

theorem delimiter_bind (d : Delimiter) {k k' : List Lexeme → Parse (Parsed β)}
    (hk : ∀ rest, k' (rest.map f.move) = move f (k rest)) :
    (delimiter d (ts.map f.move) >>= k') = move f (delimiter d ts >>= k) := by
  rw [delimiter, delimiter, after?_map]
  cases after? d ts with
  | none => rfl
  | some rest => exact hk rest

theorem placeless_identifier : Placeless f identifier := by
  intro ts
  cases ts with
  | nil => rfl
  | cons l ts =>
    rw [List.map_cons, identifier, identifier, f.token_move]
    split <;> rfl

theorem target_map (ts : List Lexeme) (e : Expr) :
    target (ts.map f.move) e = (target ts e).mapError (·.move f) := by
  unfold target
  split <;> rfl

theorem placeless_vectorOf (parts : List Expr) : Placeless f (vectorOf parts) := by
  intro ts
  unfold vectorOf
  split <;> rfl

structure PlacelessExpr (f : Relocation) (fuel : Nat) : Prop where
  expression : Placeless f (expression fuel)
  binary (level : Nat) : Placeless f (binary fuel level)
  chain (level : Nat) (left : Expr) : Placeless f (chain fuel level left)
  unary : Placeless f (unary fuel)
  postfixed : Placeless f (postfixed fuel)
  suffixes (e : Expr) : Placeless f (suffixes fuel e)
  primary : Placeless f (primary fuel)
  items (stop : Delimiter) : Placeless f (items fuel stop)
  someItems : Placeless f (someItems fuel)
  components (more : Nat) : Placeless f (components fuel more)

section Expressions

variable (h : PlacelessExpr f fuel)
include h

theorem expression_succ : Placeless f (expression (fuel + 1)) := by
  intro ts
  rw [expression, expression]
  refine (h.binary 0).bind fun left rest => ?_
  dsimp only
  rw [assignAt?_map]
  cases assignAt? rest with
  | none => rfl
  | some r =>
    dsimp only [Option.map_some, Parsed.move]
    rw [target_map]
    exact mapError_bind _ fun place => h.expression.bind fun value rest => rfl

theorem binary_succ (level : Nat) : Placeless f (binary (fuel + 1) level) := by
  intro ts
  rw [binary, binary]
  split
  · exact (h.binary _).bind fun left rest => h.chain _ _ _
  · exact h.unary ts

theorem chain_succ (level : Nat) (left : Expr) : Placeless f (chain (fuel + 1) level left) := by
  intro ts
  rw [chain, chain, binaryAt?_map]
  cases binaryAt? level ts with
  | none => rfl
  | some r => exact (h.binary _).bind fun right rest => h.chain _ _ _

theorem unary_succ : Placeless f (unary (fuel + 1)) := by
  intro ts
  rw [unary, unary, unaryAt?_map, stepAt?_map, castAt?_map]
  cases unaryAt? ts with
  | some r => exact h.unary.bind fun operand rest => rfl
  | none =>
    cases stepAt? ts with
    | some r =>
      refine h.postfixed.bind fun operand rest => ?_
      dsimp only [Parsed.move]
      rw [target_map]
      exact mapError_bind _ fun place => rfl
    | none =>
      cases castAt? ts with
      | some r => exact h.unary.bind fun operand rest => rfl
      | none => exact h.postfixed ts

theorem postfixed_succ : Placeless f (postfixed (fuel + 1)) := by
  intro ts
  rw [postfixed, postfixed]
  exact h.primary.bind fun e rest => h.suffixes e rest

theorem suffixes_succ (e : Expr) : Placeless f (suffixes (fuel + 1) e) := by
  intro ts
  rw [suffixes, suffixes, afterSymbol?_map, after?_map, stepAt?_map]
  cases afterSymbol? .dot ts with
  | some rest =>
    refine placeless_identifier.bind fun name after => ?_
    dsimp only
    cases Axis.ofName? name with
    | none => rfl
    | some axis => exact h.suffixes _ after
  | none =>
    cases after? .openBracket ts with
    | some rest =>
      refine h.expression.bind fun first rest => ?_
      dsimp only
      rw [after?_map]
      cases after? .colon rest with
      | some rest =>
        refine h.expression.bind fun last rest => ?_
        exact delimiter_bind _ fun rest => h.suffixes _ rest
      | none => exact delimiter_bind _ fun rest => h.suffixes _ rest
    | none =>
      cases stepAt? ts with
      | none => rfl
      | some r =>
        dsimp only [Option.map_some, Option.map_none, Parsed.move]
        rw [target_map]
        exact mapError_bind _ fun place => rfl

theorem primary_succ : Placeless f (primary (fuel + 1)) := by
  intro ts
  cases ts with
  | nil => rfl
  | cons l rest =>
    rw [List.map_cons, primary, primary, f.token_move]
    split
    · rfl
    · rfl
    · rfl
    · rw [after?_map]
      cases after? .openParen rest with
      | none => rfl
      | some rest =>
        exact (h.items _).bind fun args rest => delimiter_bind _ fun rest => rfl
    · exact h.expression.bind fun e rest => delimiter_bind _ fun rest => rfl
    · exact (h.items _).bind fun es rest => delimiter_bind _ fun rest => rfl
    · exact (h.components _).bind fun parts rest => placeless_vectorOf parts rest
    · rfl

theorem items_succ (stop : Delimiter) : Placeless f (items (fuel + 1) stop) := by
  intro ts
  rw [items, items, after?_map]
  cases after? stop ts with
  | some rest => rfl
  | none => exact h.someItems ts

theorem someItems_succ : Placeless f (someItems (fuel + 1)) := by
  intro ts
  rw [someItems, someItems]
  refine h.expression.bind fun e rest => ?_
  dsimp only
  rw [after?_map]
  cases after? .comma rest with
  | none => rfl
  | some rest => exact h.someItems.bind fun es rest => rfl

theorem components_succ (more : Nat) : Placeless f (components (fuel + 1) more) := by
  intro ts
  rw [components, components]
  refine (h.binary _).bind fun e rest => ?_
  dsimp only
  rw [after?_map, afterSymbol?_map]
  cases more with
  | zero => cases afterSymbol? .greater rest <;> rfl
  | succ more =>
    cases after? .comma rest with
    | some rest => exact (h.components more).bind fun es rest => rfl
    | none => cases afterSymbol? .greater rest <;> rfl

end Expressions

theorem placelessExpr (fuel : Nat) : PlacelessExpr f fuel := by
  induction fuel with
  | zero =>
    exact ⟨fun _ => rfl, fun _ _ => rfl, fun _ _ _ => rfl, fun _ => rfl, fun _ => rfl, fun _ _ => rfl,
      fun _ => rfl, fun _ _ => rfl, fun _ => rfl, fun _ _ => rfl⟩
  | succ fuel h =>
    exact ⟨expression_succ h, binary_succ h, chain_succ h, unary_succ h,
      postfixed_succ h, suffixes_succ h, primary_succ h, items_succ h,
      someItems_succ h, components_succ h⟩

theorem placeless_condition (fuel : Nat) : Placeless f (condition fuel) := by
  intro ts
  rw [condition, condition]
  refine delimiter_bind _ fun rest => ?_
  exact (placelessExpr fuel).expression.bind fun e rest => delimiter_bind _ fun rest => rfl

theorem placeless_initializer (fuel : Nat) : Placeless f (initializer fuel) := by
  intro ts
  rw [initializer, initializer, afterSymbol?_map]
  cases afterSymbol? .assign ts with
  | none => rfl
  | some rest => exact (placelessExpr fuel).expression.bind fun e rest => rfl

theorem placeless_stateName : Placeless f stateName := by
  intro ts
  rw [stateName, stateName, afterKeyword?_map]
  cases afterKeyword? .default ts with
  | none => exact placeless_identifier ts
  | some rest => rfl

theorem placeless_namedEnd {name : List Lexeme → Parse (Parsed String)} (h : Placeless f name) :
    Placeless f (namedEnd name) := by
  intro ts
  rw [namedEnd, namedEnd]
  exact h.bind fun n rest => delimiter_bind _ fun rest => rfl

theorem placeless_forHead (fuel : Nat) : Placeless f (forHead fuel) := by
  have h := placelessExpr (f := f) fuel
  intro ts
  rw [forHead, forHead]
  refine delimiter_bind _ fun rest => ?_
  refine (h.items _).bind fun init rest => ?_
  refine delimiter_bind _ fun rest => ?_
  rw [after?_map]
  cases after? .semicolon rest with
  | some _ =>
    refine delimiter_bind _ fun rest => ?_
    exact (h.items _).bind fun step rest => delimiter_bind _ fun rest => rfl
  | none =>
    refine h.expression.bind fun test rest => ?_
    refine delimiter_bind _ fun rest => ?_
    exact (h.items _).bind fun step rest => delimiter_bind _ fun rest => rfl

theorem placeless_expressionStatement (fuel : Nat) : Placeless f (expressionStatement fuel) := by
  intro ts
  rw [expressionStatement, expressionStatement]
  exact (placelessExpr fuel).expression.bind fun e rest => delimiter_bind _ fun rest => rfl

theorem placeless_declaration (fuel : Nat) (type : ValueType) :
    Placeless f (declaration fuel type) := by
  intro ts
  rw [declaration, declaration]
  refine placeless_identifier.bind fun name rest => ?_
  exact (placeless_initializer fuel).bind fun init rest => delimiter_bind _ fun rest => rfl

structure PlacelessStmt (f : Relocation) (fuel : Nat) : Prop where
  statement : Placeless f (statement fuel)
  statements : Placeless f (statements fuel)

theorem statement_succ (h : PlacelessStmt f fuel) : Placeless f (statement (fuel + 1)) := by
  intro ts
  cases ts with
  | nil => rfl
  | cons l rest =>
    rw [List.map_cons, statement, statement, f.token_move]
    split
    · rfl
    · exact h.statements.bind fun body rest => rfl
    · exact placeless_declaration fuel _ rest
    · refine (placeless_condition fuel).bind fun test rest => ?_
      refine h.statement.bind fun thenBranch rest => ?_
      dsimp only
      rw [afterKeyword?_map]
      cases afterKeyword? .else rest with
      | none => rfl
      | some rest => exact h.statement.bind fun elseBranch rest => rfl
    · exact (placeless_condition fuel).bind fun test rest => h.statement.bind fun body rest => rfl
    · refine h.statement.bind fun body rest => ?_
      dsimp only
      rw [afterKeyword?_map]
      cases afterKeyword? .while rest with
      | none => rfl
      | some rest =>
        exact (placeless_condition fuel).bind fun test rest => delimiter_bind _ fun rest => rfl
    · exact (placeless_forHead fuel).bind fun head rest => h.statement.bind fun body rest => rfl
    · rw [after?_map]
      cases after? .semicolon rest with
      | some rest => rfl
      | none =>
        exact (placelessExpr fuel).expression.bind fun value rest => delimiter_bind _ fun rest => rfl
    · exact (placeless_namedEnd placeless_stateName).bind fun name rest => rfl
    · exact (placeless_namedEnd placeless_identifier).bind fun name rest => rfl
    · exact (placeless_namedEnd placeless_identifier).bind fun name rest => rfl
    · exact delimiter_bind _ fun rest => rfl
    · exact delimiter_bind _ fun rest => rfl
    · exact placeless_expressionStatement fuel (l :: rest)

theorem statements_succ (h : PlacelessStmt f fuel) : Placeless f (statements (fuel + 1)) := by
  intro ts
  rw [statements, statements, after?_map, List.isEmpty_map]
  cases after? .closeBrace ts with
  | some rest => rfl
  | none =>
    dsimp only [Option.map_none]
    split
    · rfl
    · exact h.statement.bind fun s rest => h.statements.bind fun body rest => rfl

theorem placelessStmt (fuel : Nat) : PlacelessStmt f fuel := by
  induction fuel with
  | zero => exact ⟨fun _ => rfl, fun _ => rfl⟩
  | succ fuel h => exact ⟨statement_succ h, statements_succ h⟩

theorem placeless_block (fuel : Nat) : Placeless f (block fuel) := by
  intro ts
  rw [block, block]
  exact delimiter_bind _ fun rest => (placelessStmt fuel).statements rest

theorem placeless_param : Placeless f param := by
  intro ts
  rw [param, param, type?_map]
  cases type? ts with
  | none => rfl
  | some r => exact placeless_identifier.bind fun name rest => rfl

theorem placeless_someParams (fuel : Nat) : Placeless f (someParams fuel) := by
  induction fuel with
  | zero => exact fun _ => rfl
  | succ fuel ih =>
    intro ts
    rw [someParams, someParams]
    refine placeless_param.bind fun p rest => ?_
    dsimp only
    rw [after?_map]
    cases after? .comma rest with
    | none => exact delimiter_bind _ fun rest => rfl
    | some rest => exact ih.bind fun ps rest => rfl

theorem placeless_params (fuel : Nat) : Placeless f (params fuel) := by
  intro ts
  rw [params, params]
  refine delimiter_bind _ fun rest => ?_
  rw [after?_map]
  cases after? .closeParen rest with
  | none => exact placeless_someParams fuel rest
  | some rest => rfl

theorem placeless_routine (fuel : Nat) : Placeless f (routine fuel) := by
  intro ts
  rw [routine, routine]
  exact (placeless_params fuel).bind fun ps rest => (placeless_block fuel).bind fun body rest => rfl

theorem placeless_handlers (fuel : Nat) (known : NameMap Handler) :
    Placeless f (handlers fuel known) := by
  induction fuel generalizing known with
  | zero => exact fun _ => rfl
  | succ fuel ih =>
    intro ts
    rw [handlers, handlers, after?_map]
    cases after? .closeBrace ts with
    | some rest => rfl
    | none =>
      refine placeless_identifier.bind fun event rest => ?_
      refine (placeless_routine fuel).bind fun r rest => ?_
      dsimp only
      split
      · rfl
      · exact ih _ rest

theorem placeless_stateBody (fuel : Nat) : Placeless f (stateBody fuel) := by
  intro ts
  rw [stateBody, stateBody]
  exact delimiter_bind _ fun rest => placeless_handlers fuel [] rest

theorem addState_map (s : Script) (name : String) (state : NameMap Handler) (ts : List Lexeme) :
    addState s name state (ts.map f.move) = (addState s name state ts).mapError (·.move f) := by
  unfold addState
  split <;> rfl

theorem addFunction_map (s : Script) (name : String) (g : Function) (ts : List Lexeme) :
    addFunction s name g (ts.map f.move) = (addFunction s name g ts).mapError (·.move f) := by
  unfold addFunction
  split <;> rfl

theorem addGlobal_map (s : Script) (g : Global) (ts : List Lexeme) :
    addGlobal s g (ts.map f.move) = (addGlobal s g ts).mapError (·.move f) := by
  unfold addGlobal
  split <;> rfl

theorem placeless_add {add : List Lexeme → Parse Script} {l : Lexeme} {ls : List Lexeme}
    (h : ∀ ts, add (ts.map f.move) = (add ts).mapError (·.move f)) (rest : List Lexeme) :
    (add (f.move l :: ls.map f.move) >>= fun s => .ok (s, rest.map f.move)) =
      move f (add (l :: ls) >>= fun s => .ok (s, rest)) := by
  rw [← List.map_cons, h]
  exact mapError_bind _ fun s => rfl

theorem placeless_define (fuel : Nat) (s : Script) : Placeless f (define fuel s) := by
  intro ts
  cases ts with
  | nil => rfl
  | cons l rest =>
    rw [List.map_cons, define, define, f.token_move]
    split
    · refine (placeless_stateBody fuel).bind fun state rest => ?_
      exact placeless_add (addState_map s _ _) rest
    · refine placeless_identifier.bind fun name rest => ?_
      refine (placeless_stateBody fuel).bind fun state rest => ?_
      exact placeless_add (addState_map s _ _) rest
    · refine placeless_identifier.bind fun name rest => ?_
      dsimp only
      rw [after?_map]
      cases after? .openParen rest with
      | some _ =>
        refine (placeless_routine fuel).bind fun r rest => ?_
        exact placeless_add (addFunction_map s _ _) rest
      | none =>
        refine (placeless_initializer fuel).bind fun init rest => ?_
        refine delimiter_bind _ fun rest => ?_
        exact placeless_add (addGlobal_map s _) rest
    · refine (placeless_routine fuel).bind fun r rest => ?_
      exact placeless_add (addFunction_map s _ _) rest
    · rfl

theorem definitions_map (fuel : Nat) (s : Script) (ts : List Lexeme) :
    definitions fuel s (ts.map f.move) = (definitions fuel s ts).mapError (·.move f) := by
  induction fuel generalizing s ts with
  | zero => cases ts <;> rfl
  | succ fuel ih =>
    cases ts with
    | nil => rfl
    | cons l ts =>
      have hdefine := placeless_define (f := f) fuel s (l :: ts)
      rw [List.map_cons] at hdefine ⊢
      rw [definitions.eq_3 _ _ _ (by simp), definitions.eq_3 _ _ _ (by simp), hdefine]
      cases define fuel s (l :: ts) with
      | error e => rfl
      | ok r => exact ih r.1 r.2

end Parse

theorem Script.parse_map (f : Relocation) (ts : List Lexeme) :
    parse (ts.map f.move) = (parse ts).mapError (·.move f) := by
  rw [parse, parse, Parse.steps, List.length_map, Parse.steps, Parse.definitions_map]

end PrimScript
