import PrimScript.Eval.Run
import PrimScript.Proofs.Eval.Expr
import PrimScript.Proofs.Eval.Flow
import PrimScript.Proofs.Eval.Path
import PrimScript.Syntax.Validity

/-! Statements and bodies keep to contracts: loops and blocks first, by induction on the passes and
jumps that are left, and then statements and bodies.  A statement is entered along paths that lead to
its labels, unless the contract allows others. -/

namespace PrimScript

open Eval

namespace Flow

def Returns (V : Value → Prop) : Flow → Prop
  | .return (some v) => V v
  | _ => True

def Plain : Flow → Prop
  | .return _ | .state _ => False
  | _ => True

end Flow

namespace Eval.Contract

structure ForBodies (K : Contract) : Prop extends K.ForExprs where
  capped : ∀ {m}, K.machine m → K.machine (m.note .capped)
  plain : ∀ {m f}, f.Plain → K.machine m → K.flow f m
  result : ∀ {m v}, (∀ w ∈ v, K.value w) → K.machine m → K.flow (.return v) m
  stated : ∀ {m target}, K.target target → K.machine m →
    K.flow (.state target) (m.note (.stated target))
  within : ∀ {m f}, (∀ target, f ≠ .state target) → K.flow f m → K.machine m
  returned : ∀ {m v}, K.flow (.return v) m → ∀ w ∈ v, K.value w
  taken : ∀ {m f target}, K.flow f m → m.requested = some target →
    K.flow (.state target) { m with requested := none }
  undefined : ∀ {m} label, K.machine m → K.halt (.error (.undefinedLabel label)) m
  lost : K.lost → ∀ {m} e, K.machine m → K.halt (.error e) m

def Taken (K : Contract) (P : Machine → Prop) : Option String → Machine → Prop
  | some target, m => K.flow (.state target) m
  | none, m => P m

namespace ForBodies

variable {K : Contract} (h : K.ForBodies)
include h

theorem ends {f : Flow} (hf : f.Plain) : K.Ends (pure f) := Meets.pure fun _ => h.plain hf

theorem normal : K.Ends (pure .normal) := h.ends trivial

theorem lose (hl : K.lost) (e : EvalError) : K.Ends (Eval.fail e) := Meets.throw fun _ => h.lost hl e

theorem cappedFlow (what : String) (cap : Nat) : K.Ends (Flow.capped what cap) := by
  apply (Yields.modify fun m hm => h.capped hm).bind_ends
  intro _ _
  exact (h.warned _ _ rfl).bind_ends fun _ _ => h.normal

theorem takeRequest (f : Flow) : Meets (K.flow f) (K.Taken (K.flow f)) K.halt Eval.takeRequest := by
  intro m hm
  rw [Eval.takeRequest, on_bind]
  by_cases hd : m.stack.depth ≤ 1
  · cases hr : m.requested with
    | none => simpa [hd, hr, Ended, Taken] using hm
    | some target =>
      simpa [hd, hr, on_bind, -bind_pure_comp, Ended, Taken] using h.taken hm hr
  · simpa [hd, Ended, Taken] using hm

theorem unlessRequested {f : Flow} {next : Eval Flow} (hn : Meets (K.flow f) K.flow K.halt next) :
    Meets (K.flow f) K.flow K.halt (Eval.unlessRequested next) := by
  apply (h.takeRequest f).bind
  intro r
  cases r with
  | none => exact hn
  | some target => exact Meets.pure fun _ => id

theorem behind {f : Flow} (hf : ∀ target, f ≠ .state target) {next : Eval Flow} (hn : K.Ends next) :
    Meets (K.flow f) K.flow K.halt next :=
  Meets.mono hn (fun _ => h.within hf) fun _ _ => id

section Loop

variable {l : Loop} (ht : K.Yields (fun _ => True) l.test) (hs : K.Yields (fun _ => True) l.step)

theorem after (f : Flow) {next : Eval Flow} (hn : K.Ends next) :
    Meets (K.flow f) K.flow K.halt (Loop.after f next) := by
  cases f with
  | normal => exact h.unlessRequested (h.behind (by simp) hn)
  | «continue» => exact h.unlessRequested (h.behind (by simp) hn)
  | «break» => exact h.behind (by simp) (h.normal)
  | «return» v => exact Meets.pure fun _ => id
  | state target => exact Meets.pure fun _ => id
  | jump label => exact Meets.pure fun _ => id

include ht hs

theorem passes (hb : K.Ends (l.body none)) (left : Nat) : K.Ends (l.passes left) := by
  induction left with
  | zero => exact h.cappedFlow _ _
  | succ left ih =>
    apply Meets.bind hb
    intro f
    apply h.after f
    apply hs.bind_ends
    intro _ _
    apply ht.bind_ends
    intro go _
    cases go with
    | true => exact ih
    | false => exact h.normal

theorem tested (hb : K.Ends (l.body none)) : K.Ends l.tested := by
  apply ht.bind_ends
  intro go _
  cases go with
  | true => exact h.passes ht hs hb l.cap
  | false => exact h.normal

theorem resume (hb : K.Ends (l.body none)) {path : List Nat} (hp : K.Ends (l.body (some path))) :
    K.Ends (l.resume path) := by
  apply Meets.bind hp
  intro f
  apply h.after f
  exact hs.bind_ends fun _ _ => h.tested ht hs hb

end Loop

theorem run {b : Block} {entry : Entry}
    (hb : ∀ (i : Nat) (hi : i < b.statements.size), K.Ends (b.statements[i] none))
    (hl : ∀ i path, entry = some (i :: path) → b.statements.size ≤ i → K.lost)
    (he : ∀ i path, entry = some (i :: path) → ∀ hi : i < b.statements.size,
      K.Ends (b.statements[i] (some path))) : K.Ends (b.run entry) :=
  Block.meets_run hb (fun _ _ => h.unlessRequested) (fun hf => h.within hf)
    (fun _ => h.plain trivial) h.cappedFlow (fun i path hi hle => h.lose (hl i path hi hle) _) he

end ForBodies

end Eval.Contract

theorem Scope.meets_afterJumps (s : Scope) {body : List Stmt} {b : Block} {P : Machine → Prop}
    {G : Flow → Machine → Prop} {X : Halt → Machine → Prop}
    (hj : ∀ label m, G (.jump label) m → P m)
    (hu : ∀ label, Meets P G X (Eval.fail (.undefinedLabel label)))
    (hc : ∀ what cap, Meets P G X (Flow.capped what cap))
    (hb : ∀ label path, pathIn? label 0 body = some path → Meets P G X (b.run (some path)))
    (left : Nat) (f : Flow) : Meets (G f) G X (s.afterJumps body b left f) := by
  induction left generalizing f with
  | zero =>
    unfold Scope.afterJumps
    split
    · next label =>
      refine Meets.mono (P := P) ?_ (hj label) fun _ _ => id
      split
      · exact hu label
      · exact hc _ _
    · exact Meets.pure fun _ => id
  | succ left ih =>
    unfold Scope.afterJumps
    split
    · next label =>
      refine Meets.mono (P := P) ?_ (hj label) fun _ _ => id
      split
      · exact hu label
      · next path hp => exact Meets.bind (hb label path hp) ih
    · exact Meets.pure fun _ => id

open Contract

variable {K : Contract} {s : Scope}

section Parts

variable (h : K.ForBodies) (hs : K.Calls s)
include h hs

theorem Eval.ends_returned (value : Option Expr) : K.Ends (Eval.returned s value) := by
  cases value with
  | none => exact Meets.pure fun _ => h.result (by simp)
  | some e =>
    apply Yields.returnType.bind_ends
    intro type _
    apply (e.yields_eval h.toForExprs hs type).bind_ends
    intro v hv
    cases type with
    | none => exact Meets.pure fun _ => h.result (by simpa using hv)
    | some t => exact Meets.pure fun _ => h.result (by simpa using h.closed.coerce t hv)

theorem Scope.yields_effects (es : List Expr) : K.Yields (fun _ => True) (s.effects es) :=
  (Expr.yields_evalAll h.toForExprs hs es).discard

theorem Scope.yields_test (condition : Expr) : K.Yields (fun _ => True) (s.test condition) :=
  (condition.yields_eval h.toForExprs hs none).bind fun _ _ => .pure trivial

theorem Scope.yields_loop_test (condition : Option Expr) (body : Entry → Eval Flow)
    (step : List Expr) : K.Yields (fun _ => True) (s.loop condition body step).test := by
  cases condition with
  | none => exact .pure trivial
  | some c => exact s.yields_test h hs c

section Loop

variable {condition : Option Expr} {step : List Expr} {body : Stmt}
  (hb : ∀ entry, body.Reaches entry ∨ K.lost → K.Ends (body.run s entry))
include hb

theorem Scope.ends_passes (left : Nat) :
    K.Ends ((s.loop condition (body.run s) step).passes left) :=
  h.passes (s.yields_loop_test h hs condition _ step) (s.yields_effects h hs step)
    (hb none (.inl nofun)) left

theorem Scope.ends_tested : K.Ends (s.loop condition (body.run s) step).tested :=
  h.tested (s.yields_loop_test h hs condition _ step) (s.yields_effects h hs step)
    (hb none (.inl nofun))

theorem Scope.ends_resume {t : Stmt} {path : List Nat}
    (ht : ∀ label, t.path? label = (body.path? label).map (0 :: ·))
    (hp : t.Reaches (some path) ∨ K.lost) :
    K.Ends ((s.loop condition (body.run s) step).resume path.tail) := by
  refine h.resume (s.yields_loop_test h hs condition _ step) (s.yields_effects h hs step)
    (hb none (.inl nofun)) (hb (some path.tail) (hp.imp_left ?_))
  rintro hr _ ⟨⟩
  obtain ⟨label, hl⟩ := hr path rfl
  obtain ⟨rest, hrest, rfl⟩ := Option.map_eq_some_iff.1 ((ht label).symm.trans hl)
  exact ⟨label, hrest⟩

end Loop

omit hs in
theorem Scope.ends_block {body : List Stmt}
    (hb : ∀ t ∈ body, ∀ entry, t.Reaches entry ∨ K.lost → K.Ends (t.run s entry)) {entry : Entry}
    (he : (Stmt.block body).Reaches entry ∨ K.lost) :
    K.Ends ((s.block body (Stmt.runs s body)).run entry) := by
  apply h.run
  · intro i hi
    have ht := List.getElem?_eq_getElem (s.size_block body ▸ hi)
    rw [s.getElem_block ht]
    exact hb _ (List.getElem_mem _) none (.inl nofun)
  -- A path to a label names statements of the block only.
  · rintro i path rfl hi
    refine he.resolve_left fun hr => ?_
    obtain ⟨label, hl⟩ := hr _ rfl
    obtain ⟨t, ht, -⟩ := Stmt.of_block_path?_eq_some hl
    rw [s.size_block] at hi
    rw [List.getElem?_eq_none hi] at ht
    cases ht
  · rintro i path rfl hi
    have ht := List.getElem?_eq_getElem (s.size_block body ▸ hi)
    rw [s.getElem_block ht]
    refine hb _ (List.getElem_mem _) _ (he.imp_left ?_)
    rintro hr _ ⟨⟩
    obtain ⟨label, hl⟩ := hr _ rfl
    obtain ⟨t, ht', hrest⟩ := Stmt.of_block_path?_eq_some hl
    cases ht.symm.trans ht'
    exact ⟨label, hrest⟩

end Parts

mutual

theorem Stmt.ends_run (h : K.ForBodies) (hs : K.Calls s) : (t : Stmt) → (∀ x ∈ t.targets, K.target x) →
    ∀ entry, t.Reaches entry ∨ K.lost → K.Ends (t.run s entry)
  | .declare name type none, _, none, _ => by
    rw [Stmt.run]
    exact (h.declared name type (h.closed.zero type)).bind_ends fun _ _ => h.normal
  | .declare name type (some e), _, none, _ => by
    rw [Stmt.run]
    apply (e.yields_evalAs h.toForExprs hs type).bind_ends
    intro v hv
    exact (h.declared name type hv).bind_ends fun _ _ => h.normal
  | .assign target op value, _, none, _ => by
    rw [Stmt.run]
    exact (Expr.yields_eval h.toForExprs hs none _).discard.bind_ends fun _ _ => h.normal
  | .expr e, _, none, _ => by
    rw [Stmt.run]
    exact (e.yields_eval h.toForExprs hs none).discard.bind_ends fun _ _ => h.normal
  | .ite condition yes none, ht, none, _ => by
    rw [Stmt.run]
    apply (s.yields_test h hs condition).bind_ends
    intro go _
    cases go with
    | true => exact yes.ends_run h hs ht none (.inl nofun)
    | false => exact h.normal
  | .ite condition yes (some no), ht, none, _ => by
    rw [Stmt.run]
    obtain ⟨hy, hn⟩ := List.forall_mem_append.1 ht
    apply (s.yields_test h hs condition).bind_ends
    intro go _
    cases go with
    | true => exact yes.ends_run h hs hy none (.inl nofun)
    | false => exact no.ends_run h hs hn none (.inl nofun)
  | .ite _ yes none, ht, some (0 :: path), he => by
    rw [Stmt.run]
    exact yes.ends_run h hs ht _ (he.imp_left Stmt.Reaches.of_ite)
  | .ite _ yes (some no), ht, some (0 :: path), he => by
    rw [Stmt.run]
    exact yes.ends_run h hs (List.forall_mem_append.1 ht).1 _ (he.imp_left Stmt.Reaches.of_ite)
  | .ite _ _ (some no), ht, some (1 :: path), he => by
    rw [Stmt.run]
    exact no.ends_run h hs (List.forall_mem_append.1 ht).2 _ (he.imp_left Stmt.Reaches.of_else)
  | .ite _ _ none, _, some [], he | .ite _ _ none, _, some ((_ + 1) :: _), he
  | .ite _ _ (some _), _, some [], he | .ite _ _ (some _), _, some ((_ + 2) :: _), he => by
    have hl := he.resolve_left (by simp [Stmt.Reaches, Stmt.path?, Option.or_eq_some_iff])
    simpa [Stmt.run] using h.lose hl .lostBranch
  | .while condition body, ht, none, _ => by
    rw [Stmt.run]
    exact s.ends_tested h hs (body.ends_run h hs ht)
  | .while condition body, ht, some path, he => by
    rw [Stmt.run]
    exact s.ends_resume h hs (body.ends_run h hs ht) (fun _ => by rw [Stmt.path?]) he
  | .doWhile body condition, ht, none, _ => by
    rw [Stmt.run]
    exact s.ends_passes h hs (body.ends_run h hs ht) _
  | .doWhile body condition, ht, some path, he => by
    rw [Stmt.run]
    exact s.ends_resume h hs (body.ends_run h hs ht) (fun _ => by rw [Stmt.path?]) he
  | .for init condition step body, ht, none, _ => by
    rw [Stmt.run]
    apply (s.yields_effects h hs init).bind_ends
    intro _ _
    exact s.ends_tested h hs (body.ends_run h hs ht)
  | .for init condition step body, ht, some path, he => by
    rw [Stmt.run]
    exact s.ends_resume h hs (body.ends_run h hs ht) (fun _ => by rw [Stmt.path?]) he
  | .block body, ht, entry, he => by
    rw [Stmt.run]
    exact s.ends_block h (Stmt.ends_runs h hs body ht) he
  | .return value, _, none, _ => by
    rw [Stmt.run]
    exact Eval.ends_returned h hs value
  | .state target, ht, none, _ => by
    rw [Stmt.run]
    have ht' := ht target (List.mem_singleton_self target)
    exact Meets.bind (Meets.modify fun _ => h.stated ht') fun _ => Meets.pure fun _ => id
  | .jump name, _, none, _ => by
    rw [Stmt.run]
    exact h.ends trivial
  | .break, _, none, _ => by
    rw [Stmt.run]
    exact h.ends trivial
  | .continue, _, none, _ => by
    rw [Stmt.run]
    exact h.ends trivial
  | .label _, _, _, _ | .empty, _, _, _ | .declare _ _ _, _, some _, _
  | .assign _ _ _, _, some _, _ | .expr _, _, some _, _ | .return _, _, some _, _
  | .state _, _, some _, _ | .jump _, _, some _, _ | .break, _, some _, _
  | .continue, _, some _, _ => by
    simpa [Stmt.run] using h.normal

theorem Stmt.ends_runs (h : K.ForBodies) (hs : K.Calls s) :
    (ts : List Stmt) → (∀ x ∈ targetsOfBody ts, K.target x) →
    ∀ t ∈ ts, ∀ entry, t.Reaches entry ∨ K.lost → K.Ends (t.run s entry)
  | [], _ => by simp
  | t :: ts, ht => by
    obtain ⟨ht, hts⟩ := List.forall_mem_append.1 ht
    exact List.forall_mem_cons.2 ⟨t.ends_run h hs ht, Stmt.ends_runs h hs ts hts⟩

end

variable (h : K.ForBodies) (hs : K.Calls s)
include h hs

section Body

variable {body : List Stmt} (ht : ∀ x ∈ targetsOfBody body, K.target x)
include ht

theorem Scope.ends_afterJumps (left : Nat) (f : Flow) :
    Meets (K.flow f) K.flow K.halt
      (s.afterJumps body (s.block body (Stmt.runs s body)) left f) := by
  refine s.meets_afterJumps (fun _ _ => h.within (by simp))
    (fun label => Meets.throw fun _ => h.undefined label) h.cappedFlow (fun label path hp => ?_) left f
  apply s.ends_block h (Stmt.ends_runs h hs body ht)
  left
  rintro _ ⟨⟩
  exact ⟨label, hp⟩

theorem Scope.ends_runBody : K.Ends (s.runBody body) :=
  Meets.bind (s.ends_block h (Stmt.ends_runs h hs body ht) (.inl nofun))
    fun f => s.ends_afterJumps h hs ht _ f

end Body

theorem Scope.yields_bindGlobals (globals : List Global) :
    K.Yields (fun _ => True) (s.bindGlobals globals) := by
  induction globals with
  | nil => exact .pure trivial
  | cons g rest ih =>
    rw [Scope.bindGlobals]
    split
    · next e he =>
      apply (e.yields_evalAs h.toForExprs hs g.type).bind
      intro v hv
      exact (h.declared g.name g.type hv).bind fun _ _ => ih
    · exact (h.declared g.name g.type (h.closed.zero g.type)).bind fun _ _ => ih

end PrimScript
