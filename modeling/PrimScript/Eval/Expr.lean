import PrimScript.Eval.Basic
import PrimScript.Library.Catalog
import PrimScript.Slice
import PrimScript.Syntax.Script
import PrimScript.Value.Operator

/-! The evaluation of expressions.  Operands and arguments are evaluated from left to right, and
what goes wrong is reported and stands for a zero.  How functions of the script are run is left to
the scope. -/

namespace PrimScript

def Literal.value : Literal → Value
  | .integer n => .integer n
  | .float x => .float x
  | .string s => .string s

namespace Value

def component? : Value → Axis → Option Float
  | .vector v, .x => some v.x
  | .vector v, .y => some v.y
  | .vector v, .z => some v.z
  | .rotation r, .x => some r.x
  | .rotation r, .y => some r.y
  | .rotation r, .z => some r.z
  | .rotation r, .s => some r.s
  | _, _ => none

def withComponent? : Value → Axis → Float → Option Value
  | .vector v, .x, a => some (.vector { v with x := a })
  | .vector v, .y, a => some (.vector { v with y := a })
  | .vector v, .z, a => some (.vector { v with z := a })
  | .rotation r, .x, a => some (.rotation { r with x := a })
  | .rotation r, .y, a => some (.rotation { r with y := a })
  | .rotation r, .z, a => some (.rotation { r with z := a })
  | .rotation r, .s, a => some (.rotation { r with s := a })
  | _, _, _ => none

end Value

/-- The result that the left operand alone decides. -/
def BinaryOp.decided? (op : BinaryOp) (left : Value) : Option Value :=
  match op with
  | .and => if left.truthy then none else some (.integer 0)
  | .or => if left.truthy then some (.integer 1) else none
  | _ => none

def StepOp.apply? : StepOp → Value → Option Value
  | .increment, .integer n => some (.integer (n + 1))
  | .decrement, .integer n => some (.integer (n - 1))
  | .increment, .float x => some (.float (x + 1))
  | .decrement, .float x => some (.float (x - 1))
  | _, _ => none

/-- What stays the same while a body runs. -/
structure Scope where
  /-- The functions of the script. -/
  functions : NameMap Function
  /-- How many passes a loop may make, and how many jumps back. -/
  loopCap : Nat
  /-- What the running event has detected. -/
  detected : List Entity
  /-- Runs the function of that name on its arguments. -/
  invoke : String → Function → List Value → Eval Value

namespace Eval

def binary (op : BinaryOp) (a b : Value) : Eval Value := do
  match Value.applyBinary op a b with
  | some v => pure v
  | none =>
    warn .typeMismatch
      s!"operator {op.symbol} is not defined for {a.type.name} and {b.type.name}"
    pure (.zero a.type)

def unary (op : UnaryOp) (a : Value) : Eval Value := do
  match Value.applyUnary op a with
  | some v => pure v
  | none =>
    warn .typeMismatch s!"operator {op.symbol} is not defined for {a.type.name}"
    pure (.zero a.type)

/-- A component of a value, where `of` says what the value is. -/
def component (of : String) (v : Value) (axis : Axis) : Eval Value := do
  match v.component? axis with
  | some x => pure (.float x)
  | none =>
    warn .typeMismatch s!"{of} has no component .{axis.name}"
    pure (.float 0)

def element (of : String) (items : List Value) (index : Int32) (hint : Option ValueType) :
    Eval Value := do
  match (Slice.index? items.length index).bind (items[·]?) with
  | some v => pure v
  | none =>
    warn .indexOutOfRange s!"index {index.toInt} out of range for {of}"
    pure (fallback hint)

def setComponent (name : String) (axis : Axis) (x : Float) : Eval Unit := do
  match (← resolve name none).withComponent? axis x with
  | some v => discard (assign name v)
  | none => warn .typeMismatch s!"`{name}` has no component .{axis.name}"

def setElement (name : String) (items : List Value) (index : Int32) (v : Value) :
    Eval Unit := do
  match Slice.index? items.length index with
  | some i => discard (assign name (.list (items.take i ++ v.asList ++ items.drop (i + 1))))
  | none => warn .indexOutOfRange s!"index {index.toInt} out of range for `{name}`"

def argument (callee : String) (number : Nat) (t : ValueType) (v : Value) : Eval Value := do
  unless v.type.fits t do
    warn .typeMismatch s!"argument {number} of `{callee}` expects {t.name}, got {v.type.name}"
  pure (v.coerce t)

/-- As many arguments as there are parameters: zeros stand for those that are missing. -/
def complete (callee : String) (params : List ValueType) (given : Nat) (args : List Value) :
    Eval (List Value) := do
  unless given = params.length do
    warn .arityMismatch s!"`{callee}` takes {params.length} argument(s), {given} given"
  pure (args ++ (params.drop args.length).map Value.zero)

def callLibrary (f : LibraryFunction) (args : List Value) (detected : List Entity) :
    Eval Value := do
  let m ← get
  let call : Call := ⟨f.name, args, detected⟩
  let found := m.world.meanwhile
  let (reply, world) := f.run call found
  set (m.afterCall ⟨found, call, reply⟩ world)
  match reply with
  | .value v =>
    match f.returns with
    | some t => pure (v.coerce t)
    | none => pure (.integer 0)
  | .pause span =>
    modify fun m => { m with world := m.world.pause span }
    pure (fallback f.returns)
  | .invalid reason =>
    warn .typeMismatch (Reply.invalidMessage f.name reason)
    pure (fallback f.returns)
  | .failed reason =>
    warn .asyncFailure (Reply.failedMessage f.name reason)
    pure (fallback f.returns)
  | .overlong => throw .overlong

end Eval

def Target.hint? : Target → Eval (Option ValueType)
  | .variable name => Eval.typeOf? name
  | .component _ _ => pure (some .float)
  | .element _ _ => pure none

mutual

/-- The value of an expression.  The hint is the type that its surroundings expect, which decides
what stands for a value that is missing. -/
def Expr.eval (s : Scope) (hint : Option ValueType) : Expr → Eval Value
  | .literal l => pure l.value
  | .ident name => Eval.resolve name hint
  | .binary op left right => do
    let a ← left.eval s none
    match op.decided? a with
    | some v => pure v
    | none => Eval.binary op a (← right.eval s none)
  | .unary op operand => do Eval.unary op (← operand.eval s none)
  | .step op before target => do
    let old ← target.read s
    match op.apply? old with
    | some new =>
      let stored ← target.write s new
      pure (if before then stored else old)
    | none =>
      Eval.warn .typeMismatch s!"{op.symbol} cannot be applied to {old.type.name}"
      pure old
  | .call name args =>
    match s.functions.find? name with
    | some f => do
      let params := f.params.map (·.type)
      let values ← Expr.evalArgs s name 1 params args
      s.invoke name f (← Eval.complete name params args.length values)
    | none =>
      match Library.find? name with
      | some f => do
        let values ← Expr.evalArgs s name 1 f.params args
        Eval.callLibrary f (← Eval.complete name f.params args.length values) s.detected
      | none => do
        discard (Expr.evalAll s args)
        Eval.warn .unknownFunction s!"unknown function `{name}`"
        pure (Eval.fallback hint)
  | .vector x y z => do
    let a ← x.eval s (some .float)
    let b ← y.eval s (some .float)
    let c ← z.eval s (some .float)
    pure (.vector ⟨a.asFloat, b.asFloat, c.asFloat⟩)
  | .rotation x y z w => do
    let a ← x.eval s (some .float)
    let b ← y.eval s (some .float)
    let c ← z.eval s (some .float)
    let d ← w.eval s (some .float)
    pure (.rotation ⟨a.asFloat, b.asFloat, c.asFloat, d.asFloat⟩)
  | .list items => do return .splice (← Expr.evalAll s items)
  | .component of axis => do
    let v ← of.eval s none
    Eval.component v.type.name v axis
  | .subscript list index => do
    let items := (← list.eval s none).asList
    let i ← index.eval s none
    Eval.element s!"list of {items.length}" items i.asInteger hint
  | .slice list start stop => do
    let items := (← list.eval s none).asList
    let first ← start.eval s none
    let last ← stop.eval s none
    pure (.list (Slice.keep items first.asInteger last.asInteger))
  | .cast type operand => do return (← operand.eval s (some type)).coerce type
  | .assign target op value => do
    let v ← value.eval s (← target.hint?)
    match op.binary? with
    | none => target.write s v
    | some op => target.write s (← Eval.binary op (← target.read s) v)

def Target.read (s : Scope) : Target → Eval Value
  | .variable name => Eval.resolve name none
  | .component name axis => do Eval.component s!"`{name}`" (← Eval.resolve name none) axis
  | .element name index => do
    let items := (← Eval.resolve name none).asList
    let i ← index.eval s none
    Eval.element s!"`{name}`" items i.asInteger none

/-- Stores a value at a target, and gives what the assignment is worth. -/
def Target.write (s : Scope) : Target → Value → Eval Value
  | .variable name, v => Eval.assign name v
  | .component name axis, v => do
    Eval.setComponent name axis v.asFloat
    pure (.float v.asFloat)
  | .element name index, v => do
    let items := (← Eval.resolve name none).asList
    let i ← index.eval s none
    Eval.setElement name items i.asInteger v
    pure v

def Expr.evalAll (s : Scope) : List Expr → Eval (List Value)
  | [] => pure []
  | e :: es => do
    let v ← e.eval s none
    return v :: (← Expr.evalAll s es)

/-- The arguments for the given parameters, the first of which has that number.  Arguments without
a parameter are evaluated and dropped. -/
def Expr.evalArgs (s : Scope) (callee : String) (number : Nat) :
    List ValueType → List Expr → Eval (List Value)
  | _, [] => pure []
  | [], e :: es => do
    discard (e.eval s none)
    Expr.evalArgs s callee (number + 1) [] es
  | t :: ts, e :: es => do
    let v ← Eval.argument callee number t (← e.eval s (some t))
    return v :: (← Expr.evalArgs s callee (number + 1) ts es)

end

def Expr.evalAs (s : Scope) (type : ValueType) (e : Expr) : Eval Value := do
  return (← e.eval s (some type)).coerce type

end PrimScript
