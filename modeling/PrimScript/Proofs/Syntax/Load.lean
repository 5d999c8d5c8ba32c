import Mathlib.Data.Nat.Basic
import Mathlib.Order.Lattice
import PrimScript.Proofs.Syntax.Decode
import PrimScript.Proofs.Syntax.Floats
import PrimScript.Syntax.Source

/-! Loading a stored script: what was written is read back, as long as its JSON is not nested too
deeply. -/

namespace PrimScript

open Json

/-- The value is read as `x` when there is room for its nesting, and not at all when there is
not. -/
def Reads {α : Type} (d : Decode α) (j : Json) (x : α) : Prop :=
  ∀ room : Nat, d room j = if j.depth ≤ room then some x else none

def EachReads {α : Type} (d : Decode α) (js : List Json) (xs : List α) : Prop :=
  ∀ room : Nat, js.mapM (d room) = if depthOfItems js ≤ room then some xs else none

theorem bind_ite {α β : Type} {p : Prop} [Decidable p] {x : α} {f : α → Option β} :
    (if p then some x else none).bind f = if p then f x else none := by
  split <;> rfl

section
variable {α β : Type} {d : Decode α} {j : Json} {x : α} {fields : List (String × Json)}

theorem Decodes.whole (h : Decodes d j x) : Reads (Json.whole d) j x := by
  intro room
  unfold Json.whole
  split
  · next hdepth => exact h room hdepth
  · rfl

theorem reads_inside
    (h : ∀ room : Nat, d room (.obj fields) = if depthOfFields fields ≤ room then some x else none) :
    Reads (inside d) (.obj fields) x := by
  intro room
  cases room with
  | zero => simp [inside, depth]
  | succ room => simp [inside, depth, h]

theorem eachReads_map {xs : List α} {enc : α → Json} (h : ∀ x ∈ xs, Reads d (enc x) x) :
    EachReads d (xs.map enc) xs := by
  intro room
  induction xs with
  | nil => simp [depthOfItems]
  | cons x xs ih =>
    rw [List.forall_mem_cons] at h
    simp only [List.map_cons, List.mapM_cons, Option.bind_eq_bind, h.1 room, ih h.2, bind_ite, depthOfItems,
      Nat.max_le, ite_and]
    rfl

theorem EachReads.array {js : List Json} {xs : List α} (h : EachReads d js xs) :
    Reads (array? d) (.arr js) xs := by
  intro room
  cases room with
  | zero => simp [array?, depth]
  | succ room => simp [array?, depth, h room]

theorem reads_nameMap {m : NameMap α} (enc : α → Json) (sorted : m.Sorted)
    (h : ∀ e ∈ m, Reads d (enc e.2) e.2) :
    Reads (NameMap.ofJson? d) (.obj (m.map fun e => (e.1, enc e.2))) m := by
  have entries : ∀ room, (m.map fun e => (e.1, enc e.2)).mapM
      (fun f => (d room f.2).map (f.1, ·)) =
        if depthOfFields (m.map fun e => (e.1, enc e.2)) ≤ room then some m else none := by
    intro room
    clear sorted
    induction m with
    | nil => simp [depthOfFields]
    | cons e m ih =>
      rw [List.forall_mem_cons] at h
      have head : ((d room (enc e.2)).map (e.1, ·)) =
          if (enc e.2).depth ≤ room then some e else none := by
        rw [h.1 room]
        split <;> rfl
      simp only [List.map_cons, List.mapM_cons, Option.bind_eq_bind, head, ih h.2, bind_ite, depthOfFields,
        Nat.max_le, ite_and]
      rfl
  intro room
  cases room with
  | zero => simp [NameMap.ofJson?, entries?, depth]
  | succ room =>
    simp only [NameMap.ofJson?, entries?, depth, entries, Nat.add_le_add_iff_right]
    split <;> simp [sorted.ofList_eq]

end

theorem Param.reads (p : Param) : Reads Param.ofJson? p.toJson p := by
  refine reads_inside fun room => ?_
  simp [record?, uniqueField, required, ValueType.ofJson?, ValueType.toJson, word?, string?,
    depthOfFields, depth]

theorem Reads.optional {α : Type} {d : Decode α} {j : Json} {x : α} (h : Reads d j x)
    (hnull : j ≠ .null) (room : Nat) :
    Json.optional d room (some j) = if j.depth ≤ room then some (some x) else none := by
  unfold Json.optional
  split
  · simp_all
  · next e => exact absurd (Option.some.inj e) hnull
  · next e =>
    cases e
    rw [h room]
    split <;> rfl

theorem Global.reads (g : Global) : Reads Global.ofJson? g.toJson g := by
  obtain ⟨name, type, init⟩ := g
  refine reads_inside fun room => ?_
  cases init with
  | none =>
    simp [record?, uniqueField, required, Json.optional, optionalField, ValueType.ofJson?,
      ValueType.toJson, word?, string?, depthOfFields, depth]
  | some e =>
    have init := e.decodes.whole.optional e.toJson_ne_null room
    simp [record?, uniqueField, required, optionalField, ValueType.ofJson?,
      ValueType.toJson, word?, string?, depthOfFields, depth, init, bind_ite]

theorem bodyToJson_eq_map (body : List Stmt) : bodyToJson body = body.map Stmt.toJson := by
  induction body with
  | nil => simp [bodyToJson]
  | cons s body ih => simp [bodyToJson, ih]

theorem reads_params (params : List Param) :
    Reads (array? Param.ofJson?) (.arr (params.map Param.toJson)) params :=
  (eachReads_map fun p _ => p.reads).array

theorem reads_body (body : List Stmt) :
    Reads (array? (Json.whole Stmt.ofJson?)) (.arr (bodyToJson body)) body := by
  rw [bodyToJson_eq_map]
  exact (eachReads_map fun s _ => s.decodes.whole).array

theorem Function.reads (f : Function) : Reads Function.ofJson? f.toJson f := by
  obtain ⟨returns, params, body⟩ := f
  refine reads_inside fun room => ?_
  have hparams := reads_params params room
  have hbody := reads_body body room
  have hreturns : Json.optional ValueType.ofJson? room
      (some ((returns.map ValueType.toJson).getD .null)) = some returns := by
    cases returns <;> simp [Json.optional, ValueType.ofJson?, ValueType.toJson, word?]
  have flat : ((returns.map ValueType.toJson).getD .null).depth = 0 := by
    cases returns <;> rfl
  simp [record?, uniqueField, orElse, hreturns, flat, bodyOfJson?, depthOfFields, hparams, hbody,
    bind_ite, ite_and]

theorem Handler.reads (h : Handler) : Reads Handler.ofJson? h.toJson h := by
  obtain ⟨params, body⟩ := h
  refine reads_inside fun room => ?_
  have hparams := reads_params params room
  have hbody := reads_body body room
  simp [record?, uniqueField, orElse, bodyOfJson?, depthOfFields, hparams, hbody, bind_ite, ite_and]

structure Script.Sorted (s : Script) : Prop where
  functions : s.functions.Sorted
  states : s.states.Sorted
  handlers : ∀ e ∈ s.states, e.2.Sorted

theorem Script.reads {s : Script} (sorted : s.Sorted) : Reads Script.decode s.toJson s := by
  obtain ⟨globals, functions, states⟩ := s
  refine reads_inside fun room => ?_
  have hglobals := (eachReads_map fun g (_ : g ∈ globals) => g.reads).array room
  have hfunctions := reads_nameMap Function.toJson sorted.functions (fun e _ => e.2.reads) room
  have hstates := reads_nameMap
    (fun handlers => .obj (handlers.map fun e => (e.1, Handler.toJson e.2)))
    sorted.states
    (fun e he => reads_nameMap Handler.toJson (sorted.handlers e he) fun e _ => e.2.reads) room
  simp [record?, uniqueField, orElse, depthOfFields, hglobals, hfunctions, hstates, bind_ite, ite_and]

namespace Script

variable {s : Script}

theorem load_compress (sorted : s.Sorted) (rereads : ∀ x ∈ s.floats, Rereads x) :
    Script.load s.toJson.compress =
      if s.toJson.depth ≤ jsonRoom then s.validated else .error .notStored := by
  have decoded : ofJson? s.toJson = if s.toJson.depth ≤ jsonRoom then some s else none :=
    Script.reads sorted jsonRoom
  rw [Script.load, read?_compress (Script.exact rereads), Option.bind_some, decoded]
  by_cases h : s.toJson.depth ≤ jsonRoom <;> simp only [h, if_true, if_false]

/-- The text of a valid script is loaded as that script.  Of floating point numbers it is taken for
granted that a finite one is read back from its text; the reader gives up where the hundred and
twenty-eighth array or object opens inside another. -/
theorem load_stored (valid : s.validate = .ok ()) (sorted : s.Sorted)
    (finite : ∀ x ∈ s.floats, x.isFinite)
    (rereads : ∀ x ∈ s.floats, x.isFinite → readChars? (floatText x) = some (.num x))
    (shallow : s.toJson.depth < 128) :
    Script.load s.toJson.compress = .ok s := by
  have fits : s.toJson.depth ≤ jsonRoom := Nat.le_of_lt_succ shallow
  rw [load_compress sorted fun x hx => rereads x hx (finite x hx), if_pos fits, validated, valid]

def ferry : Script where
  globals :=
    [⟨"trips", .integer, some (.literal (.integer (-3)))⟩, ⟨"cargo", .list, none⟩,
     ⟨"speed", .float, some (.literal (.float 1.5))⟩]
  functions :=
    [("load",
      ⟨some .integer, [⟨.string, "name"⟩],
        [.assign (.element "cargo" (.literal (.integer 0))) .assign (.ident "name"),
         .return (some (.unary .negate (.cast .integer (.ident "name"))))]⟩),
     ("rest", ⟨none, [], [.return none]⟩)]
  states :=
    [("away",
      [("timer", ⟨[], [.for [] none [.step .increment false (.variable "trips")] .break]⟩)]),
     ("default",
      [("state_entry",
        ⟨[],
          [.declare "here" .vector (some (.vector (.ident "a") (.ident "b") (.ident "c"))),
           .ite (.binary .lessThan (.ident "trips") (.component (.ident "here") .x))
             (.block [.state "away"]) (some .empty),
           .ite (.list []) (.expr (.call "load" [.literal (.string "a \"b\"\n")])) none]⟩)])]

theorem load_stored_ferry : Script.load ferry.toJson.compress = .ok ferry := by
  have written : ferry.floats = [1.5] := rfl
  have finite : Float.isFinite 1.5 := rfl
  have rereads : readChars? (floatText 1.5) = some (.num 1.5) := rfl
  exact load_stored rfl ⟨by decide, by decide, by decide⟩ (by simpa [written] using finite)
    (by simpa [written] using fun _ => rereads) (by decide)

end Script

end PrimScript
