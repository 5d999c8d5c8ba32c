import PrimScript.Syntax.Stored

/-! Reading back stored expressions and statements.  A record is read back when its parts are, and
there is room for its nesting; by induction on the tree every part is. -/

namespace PrimScript

open Json

/-- With room for the nesting of the value, it is read as `x`. -/
def Decodes {α : Type} (d : Decode α) (j : Json) (x : α) : Prop :=
  ∀ room : Nat, j.depth ≤ room → d room j = some x

def EachDecodes {α : Type} (d : Decode α) (js : List Json) (xs : List α) : Prop :=
  ∀ room : Nat, depthOfItems js ≤ room → js.mapM (d room) = some xs

section
variable {α : Type} {d : Decode α} {x : α} {xs : List α} {kind : String}
  {fields : List (String × Json)} {j : Json} {js : List Json} {room : Nat}

theorem eachDecodes_nil : EachDecodes d [] [] := fun _ _ => rfl

theorem EachDecodes.cons (hx : Decodes d j x) (hxs : EachDecodes d js xs) :
    EachDecodes d (j :: js) (x :: xs) := by
  intro room h
  simp only [depthOfItems, Nat.max_le] at h
  simp [hx room h.1, hxs room h.2]

theorem EachDecodes.array (h : EachDecodes d js xs) : Decodes (array? d) (.arr js) xs := by
  intro room hdepth
  simp only [depth] at hdepth
  obtain ⟨room, rfl⟩ : ∃ r, room = r + 1 := ⟨room - 1, by omega⟩
  exact h room (by omega)

theorem EachDecodes.array_const (h : EachDecodes d js xs) (hdepth : (Json.arr js).depth ≤ room) :
    array? (fun _ => d room) room (.arr js) = some xs := by
  simp only [depth] at hdepth
  obtain ⟨room, rfl⟩ : ∃ r, room = r + 1 := ⟨room - 1, by omega⟩
  exact h (room + 1) (by omega)

theorem depthOfFields_append (fields fields' : List (String × Json)) :
    depthOfFields (fields ++ fields') = max (depthOfFields fields) (depthOfFields fields') := by
  induction fields with
  | nil => simp [depthOfFields]
  | cons f fields ih => simp [depthOfFields, ih, Nat.max_assoc]

theorem depthOfFields_optionalField {name : String} {j : Option Json} :
    depthOfFields (optionalField name j) ≤ room ↔ ∀ y ∈ j, y.depth ≤ room := by
  cases j <;> simp [optionalField, depthOfFields]

theorem tagged?_tagged (h : ∀ f ∈ fields, f.1 ≠ "kind") :
    tagged? "kind" (tagged kind fields) = some (kind, .obj fields) := by
  have untagged : fields.filter (·.1 = "kind") = [] := by simpa using h
  have kept : fields.filter (·.1 ≠ "kind") = fields := by simpa using h
  simp only [ne_eq, decide_not] at kept
  simp [tagged?, tagged, uniqueField, untagged, kept]

theorem decodes_tagged
    (h : ∀ room : Nat,
      depthOfFields fields ≤ room → d (room + 1) (tagged kind fields) = some x) :
    Decodes d (tagged kind fields) x := by
  intro room hdepth
  simp only [tagged, depth, depthOfFields] at hdepth
  obtain ⟨room, rfl⟩ : ∃ r, room = r + 1 := ⟨room - 1, by omega⟩
  exact h room (by omega)

theorem Expr.decodes_of_record {e : Expr} (hfields : ∀ f ∈ fields, f.1 ≠ "kind")
    (h : ∀ room : Nat, depthOfFields fields ≤ room →
      Expr.ofRecord? (fun _ => Expr.ofJson? room) (fun _ => Target.ofJson? room) room kind
        (.obj fields) = some e) :
    Decodes Expr.ofJson? (tagged kind fields) e :=
  decodes_tagged fun room hdepth => by
    rw [Expr.ofJson?, tagged?_tagged hfields]
    exact h room hdepth

theorem Target.decodes_of_record {t : Target} (hfields : ∀ f ∈ fields, f.1 ≠ "kind")
    (h : ∀ room : Nat, depthOfFields fields ≤ room →
      Target.ofRecord? (fun _ => Expr.ofJson? room) room kind (.obj fields) = some t) :
    Decodes Target.ofJson? (tagged kind fields) t :=
  decodes_tagged fun room hdepth => by
    rw [Target.ofJson?, tagged?_tagged hfields]
    exact h room hdepth

theorem Stmt.decodes_of_record {s : Stmt} (hfields : ∀ f ∈ fields, f.1 ≠ "kind")
    (h : ∀ room : Nat, depthOfFields fields ≤ room →
      Stmt.ofRecord? (fun _ => Stmt.ofJson? room) room kind (.obj fields) = some s) :
    Decodes Stmt.ofJson? (tagged kind fields) s :=
  decodes_tagged fun room hdepth => by
    rw [Stmt.ofJson?, tagged?_tagged hfields]
    exact h room hdepth

end

attribute [local simp] record? uniqueField required orElse string? bool? word? optionalField

theorem ValueType.decodes (t : ValueType) : Decodes ValueType.ofJson? t.toJson t := by
  intro room _
  simp [ValueType.ofJson?, ValueType.toJson, word?]

theorem Literal.decodes (v : Literal) : Decodes Literal.ofJson? v.toJson v := by
  intro room hdepth
  cases v <;> simp only [Literal.toJson, depth] at hdepth ⊢ <;>
    obtain ⟨room, rfl⟩ : ∃ r, room = r + 1 := ⟨room - 1, by omega⟩
  case integer n =>
    have low := n.le_toInt
    have high := n.toInt_lt
    simp [Literal.ofJson?, int32?, intBetween]
    omega
  case float x => rfl
  case string s => rfl

mutual

theorem Expr.decodes : (e : Expr) → Decodes Expr.ofJson? e.toJson e
  | .literal v => by
    refine Expr.decodes_of_record (by simp) fun room h => ?_
    simp only [depthOfFields, Nat.max_le] at h
    simp [Expr.ofRecord?, v.decodes room h.1]
  | .ident name => by
    refine Expr.decodes_of_record (by simp) fun room h => ?_
    simp [Expr.ofRecord?]
  | .binary op l r => by
    refine Expr.decodes_of_record (by simp) fun room h => ?_
    simp only [depthOfFields, Nat.max_le] at h
    simp [Expr.ofRecord?, l.decodes room h.2.1, r.decodes room h.2.2.1]
  | .unary op operand => by
    refine Expr.decodes_of_record (by simp) fun room h => ?_
    simp only [depthOfFields, Nat.max_le] at h
    simp [Expr.ofRecord?, operand.decodes room h.2.1]
  | .step op before target => by
    refine Expr.decodes_of_record (by simp) fun room h => ?_
    simp only [depthOfFields, Nat.max_le] at h
    simp [Expr.ofRecord?, target.decodes room h.2.2.1]
  | .call name args => by
    refine Expr.decodes_of_record (by simp) fun room h => ?_
    simp only [depthOfFields, Nat.max_le] at h
    simp [Expr.ofRecord?, (Expr.each_decodes args).array_const h.2.1]
  | .vector x y z => by
    refine Expr.decodes_of_record (by simp) fun room h => ?_
    simp only [depthOfFields, Nat.max_le] at h
    simp [Expr.ofRecord?, x.decodes room h.1, y.decodes room h.2.1, z.decodes room h.2.2.1]
  | .rotation x y z s => by
    refine Expr.decodes_of_record (by simp) fun room h => ?_
    simp only [depthOfFields, Nat.max_le] at h
    simp [Expr.ofRecord?, x.decodes room h.1, y.decodes room h.2.1, z.decodes room h.2.2.1,
      s.decodes room h.2.2.2.1]
  | .list items => by
    refine Expr.decodes_of_record (by simp) fun room h => ?_
    simp only [depthOfFields, Nat.max_le] at h
    simp [Expr.ofRecord?, (Expr.each_decodes items).array_const h.1]
  | .component of axis => by
    refine Expr.decodes_of_record (by simp) fun room h => ?_
    simp only [depthOfFields, Nat.max_le] at h
    simp [Expr.ofRecord?, of.decodes room h.1]
  | .subscript list index => by
    refine Expr.decodes_of_record (by simp) fun room h => ?_
    simp only [depthOfFields, Nat.max_le] at h
    simp [Expr.ofRecord?, list.decodes room h.1, index.decodes room h.2.1]
  | .slice list start stop => by
    refine Expr.decodes_of_record (by simp) fun room h => ?_
    simp only [depthOfFields, Nat.max_le] at h
    simp [Expr.ofRecord?, list.decodes room h.1, start.decodes room h.2.1, stop.decodes room h.2.2.1]
  | .cast type operand => by
    refine Expr.decodes_of_record (by simp) fun room h => ?_
    simp only [depthOfFields, Nat.max_le] at h
    simp [Expr.ofRecord?, type.decodes room h.1, operand.decodes room h.2.1]
  | .assign target op value => by
    refine Expr.decodes_of_record (by simp) fun room h => ?_
    simp only [depthOfFields, Nat.max_le] at h
    simp [Expr.ofRecord?, target.decodes room h.1, value.decodes room h.2.2.1]

theorem Target.decodes (t : Target) : Decodes Target.ofJson? t.toJson t := by
  cases t with
  | «variable» name =>
    refine Target.decodes_of_record (by simp) fun room h => ?_
    simp [Target.ofRecord?]
  | component name axis =>
    refine Target.decodes_of_record (by simp) fun room h => ?_
    simp [Target.ofRecord?]
  | element name index =>
    refine Target.decodes_of_record (by simp) fun room h => ?_
    simp only [depthOfFields, Nat.max_le] at h
    simp [Target.ofRecord?, index.decodes room h.2.1]

theorem Expr.each_decodes : (es : List Expr) → EachDecodes Expr.ofJson? (exprsToJson es) es
  | [] => eachDecodes_nil
  | e :: es => EachDecodes.cons e.decodes (Expr.each_decodes es)

end

/-- A part that may be left out is left out, or it is there, read, and not `null`. -/
def OptionDecodes {α : Type} (d : Decode α) : Option Json → Option α → Prop
  | none, none => True
  | some j, some x => Decodes d j x ∧ j ≠ .null
  | _, _ => False

section
variable {α : Type} {d : Decode α} {room : Nat} {j : Option Json} {x : Option α}

theorem OptionDecodes.optional_const (h : OptionDecodes d j x)
    (hdepth : ∀ y ∈ j, y.depth ≤ room) :
    Json.optional (fun _ => d room) room j = some x := by
  match j, x, h with
  | none, none, _ => rfl
  | some j, some x, ⟨hx, hnull⟩ =>
    unfold Json.optional
    split
    · simp_all
    · next h => exact absurd (Option.some.inj h) hnull
    · next h =>
      cases h
      simp [hx room (hdepth _ rfl)]

theorem OptionDecodes.optional (h : OptionDecodes d j x) (hdepth : ∀ y ∈ j, y.depth ≤ room) :
    Json.optional d room j = some x :=
  h.optional_const hdepth

end

section
variable {e : Expr} {es es' : List Expr} {s : Stmt} {value : Option Expr} {jv : Option Json}
  {je js : Json} {jes jes' : List Json}

theorem Stmt.decodes_declare (name : String) (type : ValueType)
    (hv : OptionDecodes Expr.ofJson? jv value) :
    Decodes Stmt.ofJson?
      (tagged "declaration"
        (("name", .str name) :: ("type", type.toJson) :: optionalField "init" jv))
      (.declare name type value) := by
  refine Stmt.decodes_of_record (by cases jv <;> simp) fun room h => ?_
  simp only [depthOfFields, Nat.max_le, depthOfFields_optionalField] at h
  have init := hv.optional h.2.2
  unfold Stmt.ofRecord?
  cases jv <;> simp [type.decodes room h.2.1, init]

theorem Stmt.decodes_return (hv : OptionDecodes Expr.ofJson? jv value) :
    Decodes Stmt.ofJson? (tagged "return" (optionalField "value" jv)) (.return value) := by
  refine Stmt.decodes_of_record (by cases jv <;> simp) fun room h => ?_
  have result := hv.optional (depthOfFields_optionalField.mp h)
  unfold Stmt.ofRecord?
  cases jv <;> simp [result]

theorem Stmt.decodes_ite (he : Decodes Expr.ofJson? je e) (hs : Decodes Stmt.ofJson? js s)
    (s? : Option Stmt) (js? : Option Json) (hs? : OptionDecodes Stmt.ofJson? js? s?) :
    Decodes Stmt.ofJson?
      (tagged "if"
        (("condition", je) :: ("then_branch", js) :: optionalField "else_branch" js?))
      (.ite e s s?) := by
  refine Stmt.decodes_of_record (by cases js? <;> simp) fun room h => ?_
  simp only [depthOfFields, Nat.max_le, depthOfFields_optionalField] at h
  have branch : Json.optional (fun _ => Stmt.ofJson? room) room js? = some s? :=
    hs?.optional_const h.2.2
  unfold Stmt.ofRecord?
  cases js? <;> simp [he room h.1, hs room h.2.1, branch]

theorem Stmt.decodes_for (hes : EachDecodes Expr.ofJson? jes es)
    (hv : OptionDecodes Expr.ofJson? jv value) (hes' : EachDecodes Expr.ofJson? jes' es')
    (hs : Decodes Stmt.ofJson? js s) :
    Decodes Stmt.ofJson?
      (tagged "for"
        (("init", .arr jes) :: optionalField "condition" jv ++
          [("step", .arr jes'), ("body", js)]))
      (.for es value es' s) := by
  refine Stmt.decodes_of_record (by cases jv <;> simp) fun room h => ?_
  simp only [List.cons_append, depthOfFields, depthOfFields_append, Nat.max_le,
    depthOfFields_optionalField] at h
  have condition := hv.optional h.2.1
  unfold Stmt.ofRecord?
  cases jv <;>
    simp [hes.array room h.1, condition, hes'.array room h.2.2.1, hs room h.2.2.2.1]

end

theorem Expr.toJson_ne_null (e : Expr) : e.toJson ≠ .null := by
  cases e <;> rw [Expr.toJson] <;> simp [tagged]

theorem Expr.option_decodes (e? : Option Expr) :
    OptionDecodes Expr.ofJson? (e?.map Expr.toJson) e? := by
  cases e? with
  | none => trivial
  | some e => exact ⟨e.decodes, e.toJson_ne_null⟩

theorem Stmt.toJson_ne_null (s : Stmt) : s.toJson ≠ .null := by
  cases s
  case ite _ _ branch => cases branch <;> rw [Stmt.toJson] <;> simp [tagged]
  all_goals rw [Stmt.toJson]; simp [tagged]

mutual

theorem Stmt.decodes : (s : Stmt) → Decodes Stmt.ofJson? s.toJson s
  | .declare name type init => Stmt.decodes_declare name type (Expr.option_decodes init)
  | .assign target op value => by
    refine Stmt.decodes_of_record (by simp) fun room h => ?_
    simp only [depthOfFields, Nat.max_le] at h
    simp [Stmt.ofRecord?, target.decodes room h.1, value.decodes room h.2.2.1]
  | .expr e => by
    refine Stmt.decodes_of_record (by simp) fun room h => ?_
    simp only [depthOfFields, Nat.max_le] at h
    simp [Stmt.ofRecord?, e.decodes room h.1]
  | .ite condition thenBranch none =>
    Stmt.decodes_ite condition.decodes thenBranch.decodes none none trivial
  | .ite condition thenBranch (some elseBranch) =>
    Stmt.decodes_ite condition.decodes thenBranch.decodes (some elseBranch)
      (some elseBranch.toJson) ⟨elseBranch.decodes, elseBranch.toJson_ne_null⟩
  | .while condition body => by
    refine Stmt.decodes_of_record (by simp) fun room h => ?_
    simp only [depthOfFields, Nat.max_le] at h
    simp [Stmt.ofRecord?, condition.decodes room h.1, body.decodes room h.2.1]
  | .doWhile body condition => by
    refine Stmt.decodes_of_record (by simp) fun room h => ?_
    simp only [depthOfFields, Nat.max_le] at h
    simp [Stmt.ofRecord?, body.decodes room h.1, condition.decodes room h.2.1]
  | .for init condition step body =>
    Stmt.decodes_for (Expr.each_decodes init) (Expr.option_decodes condition)
      (Expr.each_decodes step) body.decodes
  | .return value => Stmt.decodes_return (Expr.option_decodes value)
  | .state target => by
    refine Stmt.decodes_of_record (by simp) fun room h => ?_
    simp [Stmt.ofRecord?]
  | .jump name => by
    refine Stmt.decodes_of_record (by simp) fun room h => ?_
    simp [Stmt.ofRecord?]
  | .label name => by
    refine Stmt.decodes_of_record (by simp) fun room h => ?_
    simp [Stmt.ofRecord?]
  | .block body => by
    refine Stmt.decodes_of_record (by simp) fun room h => ?_
    simp only [depthOfFields, Nat.max_le] at h
    simp [Stmt.ofRecord?, (Stmt.each_decodes body).array_const h.1]
  | .break => by
    refine Stmt.decodes_of_record (by simp) fun room h => ?_
    simp [Stmt.ofRecord?]
  | .continue => by
    refine Stmt.decodes_of_record (by simp) fun room h => ?_
    simp [Stmt.ofRecord?]
  | .empty => by
    refine Stmt.decodes_of_record (by simp) fun room h => ?_
    simp [Stmt.ofRecord?]

theorem Stmt.each_decodes : (body : List Stmt) → EachDecodes Stmt.ofJson? (bodyToJson body) body
  | [] => eachDecodes_nil
  | s :: ss => EachDecodes.cons s.decodes (Stmt.each_decodes ss)

end

end PrimScript
