import PrimScript.Proofs.Eval.Run
import PrimScript.Proofs.Event.Catalog

/-! Arguments of calls.  They are evaluated one after the other before what is called begins, and that gets
one value for each of its parameters, however many arguments there are. -/

namespace PrimScript

namespace Eval

inductive InTurn : List (Eval Value) → Machine → List Value → Machine → Prop
  | nil (m : Machine) : InTurn [] m [] m
  | cons {act : Eval Value} {acts : List (Eval Value)} {m k n : Machine} {v : Value}
    {vs : List Value} : act.on m = (.ok v, k) → InTurn acts k vs n →
    InTurn (act :: acts) m (v :: vs) n

inductive BrokenOff : List (Eval Value) → Machine → Halt → Machine → Prop
  | head {act : Eval Value} {acts : List (Eval Value)} {m n : Machine} {h : Halt} :
    act.on m = (.error h, n) → BrokenOff (act :: acts) m h n
  | tail {act : Eval Value} {acts : List (Eval Value)} {m k n : Machine} {v : Value} {h : Halt} :
    act.on m = (.ok v, k) → BrokenOff acts k h n → BrokenOff (act :: acts) m h n

theorem InTurn.length {acts : List (Eval Value)} {m n : Machine} {vs : List Value}
    (h : InTurn acts m vs n) : vs.length = acts.length := by
  induction h with
  | nil m => rfl
  | cons _ _ ih => rw [List.length_cons, List.length_cons, ih]

end Eval

open Eval

inductive Callee
  | script (f : Function) : Callee
  | library (f : LibraryFunction) : Callee

namespace Callee

def params : Callee → List ValueType
  | .script f => f.params.map (·.type)
  | .library f => f.params

def received (c : Callee) (given : List Value) : List Value :=
  c.params.mapIdx fun i t => (given[i]?).elim (.zero t) (·.coerce t)

@[simp] theorem length_received (c : Callee) (given : List Value) :
    (c.received given).length = c.params.length := List.length_mapIdx

def count (c : Callee) (name : String) (number : Nat) (m : Machine) : Machine :=
  if number = c.params.length then m
  else
    { m with
      world := m.world.report .arityMismatch
        s!"`{name}` takes {c.params.length} argument(s), {number} given" }

end Callee

/-- What a name calls.  Functions of the script go before those of the library. -/
def Script.callee? (script : Script) (name : String) : Option Callee :=
  ((script.functions.find? name).map .script).or ((Library.find? name).map .library)

/-- The argument with that index is evaluated.  That it does not fit its parameter, when it has one, is
reported. -/
def Expr.offer (s : Scope) (callee : String) (params : List ValueType) (i : Nat) (e : Expr) :
    Eval Value := do
  let v ← e.eval s params[i]?
  match params[i]? with
  | some t =>
    unless v.type.fits t do
      warn .typeMismatch
        s!"argument {i + 1} of `{callee}` expects {t.name}, got {v.type.name}"
  | none => pure ()
  pure v

namespace Expr

variable (s : Scope) (callee : String) (params : List ValueType)

theorem evalArgs_cons (e : Expr) (es : List Expr) (i : Nat) :
    evalArgs s callee (i + 1) (params.drop i) (e :: es) =
      (do
        let v ← e.offer s callee params i
        let vs ← evalArgs s callee (i + 2) (params.drop (i + 1)) es
        pure ((params[i]?).elim vs (v.coerce · :: vs))) := by
  have hhead := List.head?_drop (l := params) (i := i)
  have htail := List.tail_drop (l := params) (i := i)
  cases hd : params.drop i with
  | nil =>
    rw [hd] at hhead htail
    rw [evalArgs, offer, ← hhead, ← htail, discard_eq_bind]
    simp
  | cons t ts =>
    rw [hd] at hhead htail
    rw [evalArgs, offer, ← hhead, ← htail, bind_assoc]
    refine bind_congr fun v => ?_
    simp only [argument, List.head?_cons, List.tail_cons, Option.elim_some]
    split <;> simp

theorem on_evalArgs (args : List Expr) (i : Nat) (m : Machine) :
    (∃ given n, InTurn (args.mapIdx fun j e => e.offer s callee params (i + j)) m given n ∧
      (evalArgs s callee (i + 1) (params.drop i) args).on m =
        (.ok ((params.drop i).zipWith (fun t v => v.coerce t) given), n)) ∨
    ∃ h n, BrokenOff (args.mapIdx fun j e => e.offer s callee params (i + j)) m h n ∧
      (evalArgs s callee (i + 1) (params.drop i) args).on m = (.error h, n) := by
  induction args generalizing i m with
  | nil => exact .inl ⟨[], m, .nil m, by simp [evalArgs]⟩
  | cons e es ih =>
    have hshift : (fun j (e : Expr) => e.offer s callee params (i + (j + 1))) =
        fun j e => e.offer s callee params (i + 1 + j) := by
      simp only [Nat.add_assoc, Nat.add_comm 1]
    rw [List.mapIdx_cons, hshift, Nat.add_zero, evalArgs_cons, on_bind]
    rcases ho : (e.offer s callee params i).on m with ⟨h | v, k⟩
    · exact .inr ⟨h, k, .head ho, rfl⟩
    · dsimp only
      rw [on_bind]
      rcases ih (i + 1) k with ⟨given, n, hg, hn⟩ | ⟨h, n, hb, hn⟩
      · refine .inl ⟨v :: given, n, .cons ho hg, ?_⟩
        rw [hn]
        by_cases hi : i < params.length
        · rw [List.drop_eq_getElem_cons hi, List.getElem?_eq_getElem hi]
          rfl
        · have hle := Nat.not_lt.1 hi
          rw [List.drop_eq_nil_of_le hle, List.drop_eq_nil_of_le (Nat.le_succ_of_le hle),
            List.getElem?_eq_none hle]
          rfl
      · exact .inr ⟨h, n, .tail ho hb, by rw [hn]⟩

end Expr

theorem Callee.zipWith_append_zeros (c : Callee) (given : List Value) :
    let args := c.params.zipWith (fun t v => v.coerce t) given
    args ++ (c.params.drop args.length).map Value.zero = c.received given := by
  unfold received
  induction c.params generalizing given with
  | nil => rfl
  | cons t ts ih =>
    cases given with
    | nil => simpa using ih []
    | cons v vs => simpa using ih vs

theorem Eval.on_complete (c : Callee) (name : String) (number : Nat) (args : List Value) (m : Machine) :
    (complete name c.params number args).on m =
      (.ok (args ++ (c.params.drop args.length).map Value.zero), c.count name number m) := by
  unfold complete Callee.count
  split <;> rfl

namespace Frame

theorem bind_cons (f : Frame) (p : Param) (ps : List Param) (args : List Value) :
    f.bind (p :: ps) args = (f.declare p.name p.type (args.head?.getD (.zero p.type))).bind ps args.tail := by
  cases args <;> rfl

theorem find?_bind_of_notMem {ps : List Param} {name : String} (h : name ∉ ps.map (·.name)) (f : Frame)
    (args : List Value) : (f.bind ps args).slots.find? name = f.slots.find? name := by
  induction ps generalizing f args with
  | nil => rfl
  | cons p ps ih =>
    rw [List.map_cons, List.mem_cons, not_or] at h
    rw [bind_cons, ih h.2]
    exact NameMap.find?_insert_of_ne h.1 _ _

theorem find?_bind {ps : List Param} {i : Nat} {p : Param} (hp : ps[i]? = some p)
    (hlast : p.name ∉ (ps.drop (i + 1)).map (·.name)) (f : Frame) (args : List Value) :
    (f.bind ps args).slots.find? p.name = some (.of p.type ((args[i]?).getD (.zero p.type))) := by
  induction ps generalizing f args i with
  | nil => cases hp
  | cons q ps ih =>
    rw [bind_cons]
    cases i with
    | zero =>
      cases hp
      have hnone : p.name ∉ ps.map (·.name) := hlast
      rw [find?_bind_of_notMem hnone, List.head?_eq_getElem?]
      exact NameMap.find?_insert_self _ _ _
    | succ i =>
      rw [ih hp hlast, List.getElem?_tail]

@[simp] theorem owner_bind (f : Frame) (ps : List Param) (args : List Value) :
    (f.bind ps args).owner = f.owner := by
  induction ps generalizing f args with
  | nil => rfl
  | cons p ps ih => rw [bind_cons, ih]; rfl

@[simp] theorem returns_bind (f : Frame) (ps : List Param) (args : List Value) :
    (f.bind ps args).returns = f.returns := by
  induction ps generalizing f args with
  | nil => rfl
  | cons p ps ih => rw [bind_cons, ih]; rfl

structure Holds (frame : Frame) (ps : List Param) (vs : List Value) : Prop where
  /-- Of parameters with one name the last counts. -/
  parameter {i : Nat} {p : Param} {v : Value} (hp : ps[i]? = some p) (hv : vs[i]? = some v)
    (hlast : p.name ∉ (ps.drop (i + 1)).map (·.name)) :
    frame.slots.find? p.name = some ⟨p.type, v⟩
  other {name : String} (h : name ∉ ps.map (·.name)) : frame.slots.find? name = none

end Frame

theorem Callee.stays_received (c : Callee) (given : List Value) {i : Nat} {t : ValueType} {v : Value}
    (ht : c.params[i]? = some t) (hv : (c.received given)[i]? = some v) : v.coerce t = v ∧ v.type = t := by
  have he : v = (given[i]?).elim (.zero t) (·.coerce t) := by
    simpa [received, ht, eq_comm] using hv
  subst he
  cases given[i]? with
  | none =>
    have hz := Value.stays_zero t
    rw [Value.Stays, Value.type_zero] at hz
    exact ⟨hz, Value.type_zero t⟩
  | some v =>
    have hv := Value.stays_coerce t v
    rw [Value.Stays, Value.type_coerce] at hv
    exact ⟨hv, Value.type_coerce t v⟩

theorem Frame.holds_bind (f : Function) (name : String) (given : List Value) :
    ((Frame.empty name f.returns).bind f.params ((Callee.script f).received given)).Holds f.params
      ((Callee.script f).received given) where
  parameter {i p v} hp hv hlast := by
    have ht : (Callee.script f).params[i]? = some p.type := by simp [Callee.params, hp]
    rw [find?_bind hp hlast, hv, Option.getD_some, Slot.of,
      ((Callee.script f).stays_received given ht hv).1]
  other h := find?_bind_of_notMem h _ _

def ValueType.result (returns : Option ValueType) (v : Option Value) : Value :=
  returns.elim (.integer 0) fun t => v.elim (.zero t) (·.coerce t)

def Function.close (f : Function) : Except Halt Flow × Machine → Except Halt Value × Machine
  | (.ok (.return v), n) => (.ok (ValueType.result f.returns v), n.setStack n.stack.pop)
  | (.ok (.state target), n) =>
    (.ok (ValueType.result f.returns none), (n.request target).setStack n.stack.pop)
  | (.ok _, n) => (.ok (ValueType.result f.returns none), n.setStack n.stack.pop)
  | (.error h, n) => (.error h, n.setStack n.stack.pop)

theorem Function.on_run (f : Function) (s : Scope) (name : String) (args : List Value) (m : Machine) :
    (f.run s name args).on m =
      f.close ((s.runBody f.body).on
        (m.setStack (m.stack.push ((Frame.empty name f.returns).bind f.params args)))) := by
  rw [run_eq, on_withFrame, act, on_bind]
  rcases (s.runBody f.body).on _ with ⟨h | r, n⟩
  · rfl
  · cases r with
    | «return» v => cases hr : f.returns <;> cases v <;> simp [close, ValueType.result, hr]
    | state target =>
      have hstack : (n.request target).stack = n.stack := rfl
      cases hr : f.returns <;>
        simp [close, ValueType.result, hr, on_bind, request, hstack, -bind_pure_comp]
    | _ => cases hr : f.returns <;> simp [close, ValueType.result, hr]

def Call.read (x : Call) (i : Nat) : ValueType → Value
  | .integer => .integer (x.integer i)
  | .float => .float (x.float i)
  | .string => .string (x.string i)
  | .key => .key (x.string i)
  | .vector => .vector (x.vector i)
  | .rotation => .rotation (x.rotation i)
  | .list => .list (x.list i)

structure Call.Finds (x : Call) (params : List ValueType) (vs : List Value) : Prop where
  value {i : Nat} {v : Value} (h : vs[i]? = some v) : x.arg i = v
  typed {i : Nat} {t : ValueType} (h : params[i]? = some t) : vs[i]? = some (x.read i t)
  beyond {i : Nat} (h : params.length ≤ i) : x.arg i = .integer 0
  entity {n : Int32} (h : vs[0]? = some (.integer n)) (e : Entity) :
    x.entity? = some e ↔ ∃ k : Nat, n.toInt = k ∧ x.detected[k]? = some e

theorem Call.read_type {x : Call} {i : Nat} {v : Value} (h : x.args[i]? = some v) : x.read i v.type = v := by
  have ha : x.arg i = v := by rw [arg, h, Option.getD_some]
  cases v <;> simp [read, Value.type, integer, float, string, chars, vector, rotation, list, ha,
    Value.asInteger, Value.asFloat, Value.asVector, Value.asRotation, Value.asList, Value.coerce, Value.chars]

theorem Call.finds (f : LibraryFunction) (given : List Value) (detected : List Entity) :
    let vs := (Callee.library f).received given
    Call.Finds ⟨f.name, vs, detected⟩ f.params vs where
  value h := by rw [arg, h, Option.getD_some]
  typed {i t} h := by
    obtain ⟨hi, -⟩ := List.getElem?_eq_some_iff.1 h
    have hlt : i < ((Callee.library f).received given).length := by rwa [Callee.length_received]
    have hv := List.getElem?_eq_getElem hlt
    rw [← ((Callee.library f).stays_received given h hv).2, hv]
    exact congrArg some (read_type hv).symm
  beyond h := by
    rw [arg, List.getElem?_eq_none (by rwa [Callee.length_received]), Option.getD_none]
  entity {n} h e := by
    have hn : integer ⟨f.name, (Callee.library f).received given, detected⟩ 0 = n := by
      rw [integer, arg, h]
      rfl
    rw [entity?, hn]
    dsimp only
    split
    · next hneg =>
      simp only [reduceCtorEq, false_iff, not_exists, not_and]
      omega
    · next hpos =>
      constructor
      · exact fun he => ⟨_, by omega, he⟩
      · rintro ⟨k, hk, he⟩
        rwa [hk, Int.toNat_natCast]

def LibraryFunction.close (f : LibraryFunction) : Reply → Except Halt Value
  | .value v => .ok (ValueType.result f.returns (some v))
  | .overlong => .error .overlong
  | _ => .ok (ValueType.result f.returns none)

section Begins

variable (script : Script) (settings : Settings) (detected : List Entity) (name : String)

/-- How a call goes on when there is a value for each parameter: the body of a function is run in a frame
that has these values, where calls may go deeper still; a function of the library finds them, and the world as it
is then. -/
inductive Callee.Begins (vs : List Value) (k : Machine) :
    Nat → Callee → Except Halt Value × Machine → Prop
  | tooDeep (f : Function) :
    Begins vs k 0 (.script f) (.error (.error (.depthExceeded settings.maxCallDepth)), k)
  | body {depth : Nat} {f : Function} {frame : Frame} (hframe : frame.Holds f.params vs)
    (howner : frame.owner = name) (hreturns : frame.returns = f.returns) :
    Begins vs k (depth + 1) (.script f)
      (f.close (((Scope.ofScript script settings detected depth).runBody f.body).on
        (k.setStack (k.stack.push frame))))
  | library {depth : Nat} {f : LibraryFunction} {reply : Reply} {w : World}
    (hfinds : Call.Finds ⟨f.name, vs, detected⟩ f.params vs)
    (hrun : f.run ⟨f.name, vs, detected⟩ k.world.meanwhile = (reply, w)) :
    Begins vs k depth (.library f)
      (f.close reply, k.afterCall ⟨k.world.meanwhile, ⟨f.name, vs, detected⟩, reply⟩ (worldAfter f (reply, w)))

variable {script settings detected name}

theorem Callee.begins_script (f : Function) (depth : Nat) (given : List Value) (k : Machine) :
    let vs := (Callee.script f).received given
    Begins script settings detected name vs k depth (.script f)
      (((Scope.ofScript script settings detected depth).invoke name f vs).on k) := by
  cases depth with
  | zero => exact .tooDeep f
  | succ depth =>
    change Begins script settings detected name _ k (depth + 1) (.script f) ((f.run _ name _).on k)
    rw [Function.on_run]
    exact .body (Frame.holds_bind f name given) (Frame.owner_bind _ _ _) (Frame.returns_bind _ _ _)

theorem Callee.begins_library (f : LibraryFunction) (depth : Nat) (given : List Value) (k : Machine) :
    let vs := (Callee.library f).received given
    Begins script settings detected name vs k depth (.library f) ((callLibrary f vs detected).on k) := by
  intro vs
  rcases hrun : f.run ⟨f.name, vs, detected⟩ k.world.meanwhile with ⟨reply, w⟩
  have he : (callLibrary f vs detected).on k =
      (f.close reply,
        k.afterCall ⟨k.world.meanwhile, ⟨f.name, vs, detected⟩, reply⟩ (worldAfter f (reply, w))) := by
    rw [on_callLibrary, callOf, hrun]
    cases reply <;> cases hr : f.returns <;>
      simp [LibraryFunction.close, ValueType.result, worldAfter, fallback, hr]
  rw [he]
  exact .library (Call.finds f given detected) hrun

theorem Callee.Begins.exists_frame {vs : List Value} {k : Machine} {depth : Nat} {f : Function}
    {r : Except Halt Value × Machine}
    (h : Begins script settings detected name vs k (depth + 1) (.script f) r) :
    ∃ frame : Frame, frame.Holds f.params vs ∧
      r = f.close (((Scope.ofScript script settings detected depth).runBody f.body).on
        (k.setStack (k.stack.push frame))) := by
  cases h with
  | body hframe => exact ⟨_, hframe, rfl⟩

end Begins

section Call

variable {script : Script} (settings : Settings) (detected : List Entity) {name : String} {c : Callee}

theorem Expr.exists_eval_call (hc : script.callee? name = some c) (depth : Nat) (args : List Expr)
    (hint : Option ValueType) :
    ∃ start : List Value → Eval Value,
      (call name args).eval (.ofScript script settings detected depth) hint =
        (do
          let values ← evalArgs (.ofScript script settings detected depth) name 1 c.params args
          start (← complete name c.params args.length values)) ∧
      ∀ given k, c.Begins script settings detected name (c.received given) k depth
        ((start (c.received given)).on k) := by
  rw [Script.callee?, Option.or_eq_some_iff] at hc
  rw [eval, Scope.functions_ofScript]
  rcases hc with hc | ⟨hnone, hc⟩
  · obtain ⟨f, hf, rfl⟩ := Option.map_eq_some_iff.1 hc
    rw [hf]
    exact ⟨_, rfl, Callee.begins_script f depth⟩
  · obtain ⟨f, hf, rfl⟩ := Option.map_eq_some_iff.1 hc
    rw [Option.map_eq_none_iff.1 hnone, hf, Scope.detected_ofScript]
    exact ⟨_, rfl, Callee.begins_library f depth⟩

/-- The arguments are evaluated in their order, surplus ones included, and then what is called begins with
a value for each of its parameters; or the evaluation of an argument is halted, and so is the call. -/
theorem Expr.on_eval_call (hc : script.callee? name = some c) (depth : Nat) (args : List Expr)
    (hint : Option ValueType) (m : Machine) :
    let s := Scope.ofScript script settings detected depth
    let acts := args.mapIdx (offer s name c.params)
    let r := ((call name args).eval s hint).on m
    (∃ given n, InTurn acts m given n ∧ given.length = args.length ∧
      (c.received given).length = c.params.length ∧
      c.Begins script settings detected name (c.received given) (c.count name args.length n) depth r) ∨
    ∃ h n, BrokenOff acts m h n ∧ r = (.error h, n) := by
  intro s acts r
  obtain ⟨start, he, hstart⟩ := exists_eval_call settings detected hc depth args hint
  have hargs := on_evalArgs s name c.params args 0 m
  simp only [Nat.zero_add, List.drop_zero] at hargs
  have hr : r = _ := congrArg (Eval.on · m) he
  rw [on_bind] at hr
  rcases hargs with ⟨given, n, hg, hn⟩ | ⟨h, n, hb, hn⟩
  · refine .inl ⟨given, n, hg, ?_, c.length_received given, ?_⟩
    · rw [hg.length, List.length_mapIdx]
    · rw [hr, hn]
      dsimp only
      rw [on_bind, on_complete]
      dsimp only
      rw [c.zipWith_append_zeros]
      exact hstart given _
  · exact .inr ⟨h, n, hb, by rw [hr, hn]⟩

end Call

def Script.labelling : Script :=
  { empty with functions := [("label", ⟨none, [⟨.integer, "n"⟩, ⟨.float, "x"⟩], []⟩)] }

/-- Three arguments for two parameters. -/
theorem Expr.on_eval_call_surplus :
    let f : Function := ⟨none, [⟨.integer, "n"⟩, ⟨.float, "x"⟩], []⟩
    let args := [1, 2, 3].map fun i => Expr.literal (.integer i)
    let m := Machine.ofWorld (.ofSettings .default (.plain []))
    let k := (Callee.script f).count "label" 3 m
    let r := ((call "label" args).eval (.ofScript .labelling .default [] 1) none).on m
    Script.labelling.callee? "label" = some (.script f) ∧
      ∃ frame : Frame, frame.slots.find? "n" = some ⟨.integer, .integer 1⟩ ∧
        frame.slots.find? "x" = some ⟨.float, (Value.integer 2).coerce .float⟩ ∧
        r = f.close (((Scope.ofScript .labelling .default [] 0).runBody []).on
          (k.setStack (k.stack.push frame))) := by
  intro f args m k r
  have hc : Script.labelling.callee? "label" = some (.script f) := rfl
  have offered (i : Nat) (n : Int32) (hi : i < 3) (m : Machine) :
      (offer (.ofScript .labelling .default [] 1) "label" [.integer, .float] i (.literal (.integer n))).on m =
        (.ok (.integer n), m) := by
    match i, hi with
    | 0, _ => rfl
    | 1, _ => rfl
    | 2, _ => rfl
  refine ⟨hc, ?_⟩
  rcases on_eval_call .default [] hc 1 args none m with
    ⟨given, n, hin, -, -, hb⟩ | ⟨h, n, hbroken, -⟩
  · rcases hin with - | ⟨h₁, - | ⟨h₂, - | ⟨h₃, ⟨⟩⟩⟩⟩
    cases h₁.symm.trans (offered 0 1 (by decide) _)
    cases h₂.symm.trans (offered 1 2 (by decide) _)
    cases h₃.symm.trans (offered 2 3 (by decide) _)
    obtain ⟨frame, hframe, hr⟩ := hb.exists_frame
    exact ⟨frame, hframe.parameter (i := 0) rfl rfl (by decide),
      hframe.parameter (i := 1) rfl rfl (by decide), hr⟩
  · rcases hbroken with h₁ | ⟨h₁, h₂ | ⟨h₂, h₃ | ⟨h₃, ⟨⟩⟩⟩⟩
    · cases h₁.symm.trans (offered 0 1 (by decide) _)
    · cases h₂.symm.trans (offered 1 2 (by decide) _)
    · cases h₃.symm.trans (offered 2 3 (by decide) _)

end PrimScript
