import PrimScript.Json.Record
import PrimScript.Syntax.Script

/-! Syntax trees stored as JSON.  Expressions, targets and statements are records tagged with their
kind; parts that are absent are left out where a reader does not need them. -/

namespace PrimScript

open Json

def ValueType.toJson (t : ValueType) : Json := .str t.name

def tagged (kind : String) (fields : List (String × Json)) : Json :=
  .obj (("kind", .str kind) :: fields)

def optionalField (name : String) : Option Json → List (String × Json)
  | none => []
  | some j => [(name, j)]

def Literal.toJson : Literal → Json
  | .integer n => .obj [("integer", .int n.toInt)]
  | .float x => .obj [("float", .num x)]
  | .string s => .obj [("string", .str s)]

mutual

def Expr.toJson : Expr → Json
  | .literal value => tagged "literal" [("value", value.toJson)]
  | .ident name => tagged "identifier" [("name", .str name)]
  | .binary op left right =>
    tagged "binary" [("op", .str op.name), ("left", left.toJson), ("right", right.toJson)]
  | .unary op operand => tagged "unary" [("op", .str op.name), ("operand", operand.toJson)]
  | .step op before target =>
    tagged "inc_dec"
      [("op", .str op.name), ("prefix", .bool before), ("target", target.toJson)]
  | .call name args => tagged "call" [("name", .str name), ("args", .arr (exprsToJson args))]
  | .vector x y z =>
    tagged "vector_literal" [("x", x.toJson), ("y", y.toJson), ("z", z.toJson)]
  | .rotation x y z s =>
    tagged "rotation_literal"
      [("x", x.toJson), ("y", y.toJson), ("z", z.toJson), ("s", s.toJson)]
  | .list items => tagged "list_literal" [("items", .arr (exprsToJson items))]
  | .component of axis => tagged "component" [("target", of.toJson), ("axis", .str axis.name)]
  | .subscript list index => tagged "subscript" [("list", list.toJson), ("index", index.toJson)]
  | .slice list start stop =>
    tagged "slice" [("list", list.toJson), ("start", start.toJson), ("end", stop.toJson)]
  | .cast type operand => tagged "cast" [("type", type.toJson), ("expr", operand.toJson)]
  | .assign target op value =>
    tagged "assign" [("target", target.toJson), ("op", .str op.name), ("value", value.toJson)]

def Target.toJson : Target → Json
  | .variable name => tagged "identifier" [("name", .str name)]
  | .component name axis => tagged "component" [("name", .str name), ("axis", .str axis.name)]
  | .element name index => tagged "element" [("name", .str name), ("index", index.toJson)]

def exprsToJson : List Expr → List Json
  | [] => []
  | e :: es => e.toJson :: exprsToJson es

end

mutual

def Stmt.toJson : Stmt → Json
  | .declare name type init =>
    tagged "declaration"
      (("name", .str name) :: ("type", type.toJson) ::
        optionalField "init" (init.map Expr.toJson))
  | .assign target op value =>
    tagged "assignment"
      [("target", target.toJson), ("op", .str op.name), ("value", value.toJson)]
  | .expr e => tagged "expression" [("expr", e.toJson)]
  | .ite condition thenBranch none =>
    tagged "if" [("condition", condition.toJson), ("then_branch", thenBranch.toJson)]
  | .ite condition thenBranch (some elseBranch) =>
    tagged "if"
      [("condition", condition.toJson), ("then_branch", thenBranch.toJson),
       ("else_branch", elseBranch.toJson)]
  | .while condition body =>
    tagged "while" [("condition", condition.toJson), ("body", body.toJson)]
  | .doWhile body condition =>
    tagged "do_while" [("body", body.toJson), ("condition", condition.toJson)]
  | .for init condition step body =>
    tagged "for"
      (("init", .arr (exprsToJson init)) ::
        optionalField "condition" (condition.map Expr.toJson) ++
        [("step", .arr (exprsToJson step)), ("body", body.toJson)])
  | .return value => tagged "return" (optionalField "value" (value.map Expr.toJson))
  | .state target => tagged "state_change" [("state", .str target)]
  | .jump label => tagged "jump" [("label", .str label)]
  | .label name => tagged "label" [("name", .str name)]
  | .block body => tagged "compound" [("body", .arr (bodyToJson body))]
  | .break => tagged "break" []
  | .continue => tagged "continue" []
  | .empty => tagged "empty" []

def bodyToJson : List Stmt → List Json
  | [] => []
  | s :: ss => s.toJson :: bodyToJson ss

end

def Param.toJson (p : Param) : Json := .obj [("type", p.type.toJson), ("name", .str p.name)]

def Global.toJson (g : Global) : Json :=
  .obj (("name", .str g.name) :: ("type", g.type.toJson) ::
    optionalField "init" (g.init.map Expr.toJson))

def Function.toJson (f : Function) : Json :=
  .obj
    [("return_type", (f.returns.map ValueType.toJson).getD .null),
     ("params", .arr (f.params.map Param.toJson)), ("body", .arr (bodyToJson f.body))]

def Handler.toJson (h : Handler) : Json :=
  .obj [("params", .arr (h.params.map Param.toJson)), ("body", .arr (bodyToJson h.body))]

def Script.toJson (s : Script) : Json :=
  .obj
    [("globals", .arr (s.globals.map Global.toJson)),
     ("functions", .obj (s.functions.map fun (name, f) => (name, f.toJson))),
     ("states", .obj (s.states.map fun (name, handlers) =>
       (name, .obj (handlers.map fun (event, h) => (event, h.toJson)))))]

def ValueType.ofJson? : Decode ValueType := word? ValueType.ofName?

def Literal.ofJson? : Decode Literal
  | _ + 1, .obj [("integer", j)] => (int32? 0 j).map .integer
  | _ + 1, .obj [("float", j)] => (float? 0 j).map .float
  | _ + 1, .obj [("string", j)] => (string? 0 j).map .string
  | _, _ => none

/-- The expression of a kind, from its record and readers of what is inside. -/
def Expr.ofRecord? (inner : Decode Expr) (place : Decode Target) (room : Nat) (kind : String)
    (r : Json) : Option Expr := do
  let expr := required inner room
  let exprs := orElse [] (array? inner) room
  let name := required string? room
  match kind with
  | "literal" =>
    let [value] ← record? ["value"] r | none
    some (.literal (← required Literal.ofJson? room value))
  | "identifier" =>
    let [n] ← record? ["name"] r | none
    some (.ident (← name n))
  | "binary" =>
    let [op, left, right] ← record? ["op", "left", "right"] r | none
    some (.binary (← required (word? BinaryOp.ofName?) room op) (← expr left) (← expr right))
  | "unary" =>
    let [op, operand] ← record? ["op", "operand"] r | none
    some (.unary (← required (word? UnaryOp.ofName?) room op) (← expr operand))
  | "inc_dec" =>
    let [op, before, target] ← record? ["op", "prefix", "target"] r | none
    some (.step (← required (word? StepOp.ofName?) room op) (← required bool? room before)
      (← required place room target))
  | "call" =>
    let [n, args] ← record? ["name", "args"] r | none
    some (.call (← name n) (← exprs args))
  | "vector_literal" =>
    let [x, y, z] ← record? ["x", "y", "z"] r | none
    some (.vector (← expr x) (← expr y) (← expr z))
  | "rotation_literal" =>
    let [x, y, z, s] ← record? ["x", "y", "z", "s"] r | none
    some (.rotation (← expr x) (← expr y) (← expr z) (← expr s))
  | "list_literal" =>
    let [items] ← record? ["items"] r | none
    some (.list (← exprs items))
  | "component" =>
    let [of, axis] ← record? ["target", "axis"] r | none
    some (.component (← expr of) (← required (word? Axis.ofName?) room axis))
  | "subscript" =>
    let [of, index] ← record? ["list", "index"] r | none
    some (.subscript (← expr of) (← expr index))
  | "slice" =>
    let [of, start, stop] ← record? ["list", "start", "end"] r | none
    some (.slice (← expr of) (← expr start) (← expr stop))
  | "cast" =>
    let [type, operand] ← record? ["type", "expr"] r | none
    some (.cast (← required ValueType.ofJson? room type) (← expr operand))
  | "assign" =>
    let [target, op, value] ← record? ["target", "op", "value"] r | none
    some (.assign (← required place room target)
      (← orElse .assign (word? AssignOp.ofName?) room op) (← expr value))
  | _ => none

def Target.ofRecord? (expr : Decode Expr) (room : Nat) (kind : String) (r : Json) :
    Option Target := do
  match kind with
  | "identifier" =>
    let [n] ← record? ["name"] r | none
    some (.variable (← required string? room n))
  | "component" =>
    let [n, axis] ← record? ["name", "axis"] r | none
    some (.component (← required string? room n) (← required (word? Axis.ofName?) room axis))
  | "element" =>
    let [n, index] ← record? ["name", "index"] r | none
    some (.element (← required string? room n) (← required expr room index))
  | _ => none

mutual

def Expr.ofJson? : Decode Expr
  | 0, _ => none
  | room + 1, j => do
    let (kind, r) ← tagged? "kind" j
    Expr.ofRecord? (fun _ => Expr.ofJson? room) (fun _ => Target.ofJson? room) room kind r

def Target.ofJson? : Decode Target
  | 0, _ => none
  | room + 1, j => do
    let (kind, r) ← tagged? "kind" j
    Target.ofRecord? (fun _ => Expr.ofJson? room) room kind r

end

def Stmt.ofRecord? (inner : Decode Stmt) (room : Nat) (kind : String) (r : Json) :
    Option Stmt := do
  let stmt := required inner room
  let expr := required Expr.ofJson? room
  let exprs := orElse [] (array? Expr.ofJson?) room
  let name := required string? room
  match kind with
  | "declaration" =>
    let [n, type, init] ← record? ["name", "type", "init"] r | none
    some (.declare (← name n) (← required ValueType.ofJson? room type)
      (← optional Expr.ofJson? room init))
  | "assignment" =>
    let [target, op, value] ← record? ["target", "op", "value"] r | none
    some (.assign (← required Target.ofJson? room target)
      (← orElse .assign (word? AssignOp.ofName?) room op) (← expr value))
  | "expression" =>
    let [e] ← record? ["expr"] r | none
    some (.expr (← expr e))
  | "if" =>
    let [condition, thenBranch, elseBranch] ←
      record? ["condition", "then_branch", "else_branch"] r | none
    some (.ite (← expr condition) (← stmt thenBranch) (← optional inner room elseBranch))
  | "while" =>
    let [condition, body] ← record? ["condition", "body"] r | none
    some (.while (← expr condition) (← stmt body))
  | "do_while" =>
    let [body, condition] ← record? ["body", "condition"] r | none
    some (.doWhile (← stmt body) (← expr condition))
  | "for" =>
    let [init, condition, step, body] ← record? ["init", "condition", "step", "body"] r | none
    some (.for (← exprs init) (← optional Expr.ofJson? room condition) (← exprs step)
      (← stmt body))
  | "return" =>
    let [value] ← record? ["value"] r | none
    some (.return (← optional Expr.ofJson? room value))
  | "state_change" =>
    let [n] ← record? ["state"] r | none
    some (.state (← name n))
  | "jump" =>
    let [n] ← record? ["label"] r | none
    some (.jump (← name n))
  | "label" =>
    let [n] ← record? ["name"] r | none
    some (.label (← name n))
  | "compound" =>
    let [body] ← record? ["body"] r | none
    some (.block (← required (array? inner) room body))
  | "break" =>
    let [] ← record? [] r | none
    some .break
  | "continue" =>
    let [] ← record? [] r | none
    some .continue
  | "empty" =>
    let [] ← record? [] r | none
    some .empty
  | _ => none

def Stmt.ofJson? : Decode Stmt
  | 0, _ => none
  | room + 1, j => do
    let (kind, r) ← tagged? "kind" j
    Stmt.ofRecord? (fun _ => Stmt.ofJson? room) room kind r

def bodyOfJson? (room : Nat) (j : Option Json) : Option (List Stmt) :=
  orElse [] (array? (whole Stmt.ofJson?)) room j

def Param.ofJson? : Decode Param := inside fun room j => do
  let [type, name] ← record? ["type", "name"] j | none
  some ⟨← required ValueType.ofJson? room type, ← required string? room name⟩

def Global.ofJson? : Decode Global := inside fun room j => do
  let [name, type, init] ← record? ["name", "type", "init"] j | none
  some ⟨← required string? room name, ← required ValueType.ofJson? room type,
    ← optional (whole Expr.ofJson?) room init⟩

def Function.ofJson? : Decode Function := inside fun room j => do
  let [returns, params, body] ← record? ["return_type", "params", "body"] j | none
  some ⟨← optional ValueType.ofJson? room returns,
    ← orElse [] (array? Param.ofJson?) room params, ← bodyOfJson? room body⟩

def Handler.ofJson? : Decode Handler := inside fun room j => do
  let [params, body] ← record? ["params", "body"] j | none
  some ⟨← orElse [] (array? Param.ofJson?) room params, ← bodyOfJson? room body⟩

def NameMap.ofJson? {α : Type} (d : Decode α) : Decode (NameMap α) := fun room j =>
  (entries? d room j).map NameMap.ofList

def Script.decode : Decode Script := inside fun room j => do
  let [globals, functions, states] ← record? ["globals", "functions", "states"] j | none
  some ⟨← orElse [] (array? Global.ofJson?) room globals,
    ← orElse [] (NameMap.ofJson? Function.ofJson?) room functions,
    ← orElse [] (NameMap.ofJson? (NameMap.ofJson? Handler.ofJson?)) room states⟩

def jsonRoom : Nat := 127

def Script.ofJson? (j : Json) : Option Script := Script.decode jsonRoom j

end PrimScript
