import PrimScript.Proofs.Flat.Code
import PrimScript.Proofs.Flat.Implements

/-! The code of a body does what the body does.  For each statement it does so from its start on and
from every label in it on, by induction over statements; the jumps out of all blocks then lead back
into the body one by one. -/

namespace PrimScript

open Eval Flat

variable {s : Scope} {code : List Instr}

theorem Stmt.run_label (name : String) (entry : Entry) :
    (Stmt.label name).run s entry = pure .normal := by
  simp [Stmt.run]

theorem Flat.Ends.label {pos : Nat} {name : String} {x : Exits} {m m' : Machine}
    {r : Except Halt Flow} (hi : code[pos]? = some (.run (.label name) x))
    (h : Ends s code (pos + 1) m r m') : Ends s code pos m r m' := by
  apply Ends.of_instr hi
  rw [Instr.step, Stmt.run_label]
  exact h

theorem Scope.Onward.condition (hs : s.Onward) : (c : Option Expr) → Eval.Onward (condition s c)
  | none => .pure true
  | some c => hs.test c

/-- The code does what a statement does that is in it. -/
structure Stmt.Simulated (s : Scope) (code : List Instr) (t : Stmt) : Prop where
  run : ∀ {pos next x}, CodeAt code pos (t.lower pos x) → next = pos + t.size →
    Implements (Ends s code pos) (t.run s none) (follow s code next x)
  enter : ∀ {pos next x label path place}, CodeAt code pos (t.lower pos x) →
    next = pos + t.size → t.path? label = some path → place? code label = some place →
      Implements (Ends s code place) (t.run s (some path)) (follow s code next x)

namespace Stmt.Simulated

theorem of_leaf (hs : s.Onward) {t : Stmt} (ht : ∀ pos x, t.lower pos x = [.run t x])
    (hl : t.labels = []) : t.Simulated s code where
  run {pos next x} h hn := by
    have hsize : t.size = 1 := by rw [← t.length_lower pos x, ht]; rfl
    rw [ht] at h
    rw [hn, hsize]
    exact .leaf h.head (hs.run t none)
  enter {pos next x label path place} _ _ hp := by
    have hm := (t.isSome_path? label).1 (by rw [hp]; rfl)
    rw [hl] at hm
    cases hm

theorem label (hs : s.Onward) (hd : Distinct code) (name : String) :
    (Stmt.label name).Simulated s code where
  run h hn := hn ▸ .leaf h.head (hs.run _ none)
  enter {pos next x label path place} h hn hp hplace := by
    have hi : code[pos]? = some (.run (.label name) x) := h.head
    obtain ⟨rfl, rfl⟩ : name = label ∧ [] = path := by simpa [Stmt.path?] using hp
    cases (hd.place? hi rfl).symm.trans hplace
    rw [Stmt.run_label, hn]
    exact (Implements.pure (follow s code (pos + 1) x) .normal).before (Ends.label hi)

section Branch

variable {condition : Expr} {yes no : Stmt}

theorem ite (hs : s.Onward) (hy : yes.Simulated s code) :
    (Stmt.ite condition yes none).Simulated s code where
  run {pos next x} h hn := by
    rw [Stmt.run]
    rw [Stmt.lower] at h
    rw [Stmt.size] at hn
    apply (Implements.test h.head (hs.test condition)).bind
    intro go
    cases go with
    | true =>
      change Implements (Ends s code (pos + 1)) _ _
      exact hy.run h.tail (by omega)
    | false =>
      rw [hn]
      exact .pure (follow s code _ x) .normal
  enter {pos next x label path place} h hn hp hplace := by
    rw [Stmt.path?] at hp
    obtain ⟨rest, hrest, rfl⟩ := Option.map_eq_some_iff.1 hp
    rw [Stmt.lower] at h
    rw [Stmt.size] at hn
    rw [Stmt.run]
    exact hy.enter h.tail (by omega) hrest hplace

theorem ite_else (hs : s.Onward) (hy : yes.Simulated s code) (hno : no.Simulated s code) :
    (Stmt.ite condition yes (some no)).Simulated s code where
  run {pos next x} h hn := by
    rw [Stmt.run]
    rw [Stmt.lower] at h
    obtain rfl : next = pos + yes.size + no.size + 2 := by rw [hn, Stmt.size]; omega
    have hg := h.tail.right (n := pos + 1 + yes.size) (by rw [yes.length_lower])
    apply (Implements.test h.head (hs.test condition)).bind
    intro go
    cases go with
    | true => exact (hy.run h.tail.left rfl).behind_goto hg.head
    | false =>
      change Implements (Ends s code (pos + yes.size + 2)) _ _
      have ht := hg.tail
      rw [Nat.add_right_comm pos] at ht
      exact hno.run ht (by omega)
  enter {pos next x label path place} h hn hp hplace := by
    rw [Stmt.path?] at hp
    rw [Stmt.lower] at h
    obtain rfl : next = pos + yes.size + no.size + 2 := by rw [hn, Stmt.size]; omega
    have hg := h.tail.right (n := pos + 1 + yes.size) (by rw [yes.length_lower])
    rcases Option.or_eq_some_iff.1 hp with hp | ⟨-, hp⟩
    · obtain ⟨rest, hrest, rfl⟩ := Option.map_eq_some_iff.1 hp
      rw [Stmt.run]
      exact (hy.enter h.tail.left rfl hrest hplace).behind_goto hg.head
    · obtain ⟨rest, hrest, rfl⟩ := Option.map_eq_some_iff.1 hp
      have ht := hg.tail
      rw [Nat.add_right_comm pos] at ht
      rw [Stmt.run]
      exact hno.enter ht (by omega) hrest hplace

end Branch

section Loop

variable {condition : Expr} {body : Stmt} (hs : s.Onward) (hb : body.Simulated s code)
include hs hb

theorem loopAt_while {pos : Nat} {x : Exits}
    (h : CodeAt code pos ((Stmt.while condition body).lower pos x)) :
    LoopAt s code (s.loop (some condition) (body.run s) []) (pos + 1) pos pos
      (pos + body.size + 2) := by
  rw [Stmt.lower] at h
  have hg := h.tail.right (n := pos + 1 + body.size) (by rw [body.length_lower])
  exact {
    body := (hb.run h.tail.left rfl).behind_goto hg.head
    step := .no_effects
    test := .test h.head (hs.test condition) }

theorem «while» : (Stmt.while condition body).Simulated s code where
  run {pos next x} h hn := by
    rw [Stmt.run, hn]
    exact (loopAt_while hs hb h).tested
  enter {pos next x label path place} h hn hp hplace := by
    rw [Stmt.path?] at hp
    obtain ⟨rest, hrest, rfl⟩ := Option.map_eq_some_iff.1 hp
    rw [Stmt.run, hn]
    apply (loopAt_while hs hb h).resume
    rw [Stmt.lower] at h
    have hg := h.tail.right (n := pos + 1 + body.size) (by rw [body.length_lower])
    exact (hb.enter h.tail.left rfl hrest hplace).behind_goto hg.head

theorem loopAt_doWhile {pos : Nat} {x : Exits}
    (h : CodeAt code pos ((Stmt.doWhile body condition).lower pos x)) :
    LoopAt s code (s.loop (some condition) (body.run s) []) pos (pos + body.size)
      (pos + body.size) (pos + body.size + 2) := by
  rw [Stmt.lower] at h
  have ht := h.right (n := pos + body.size) (by rw [body.length_lower])
  refine ⟨hb.run h.left rfl, .no_effects, (Implements.test ht.head (hs.test condition)).behind ?_⟩
  intro go m r m' hr
  cases go with
  | true => exact Ends.goto ht.tail.head hr
  | false => exact hr

theorem doWhile : (Stmt.doWhile body condition).Simulated s code where
  run {pos next x} h hn := by
    rw [Stmt.run, hn]
    exact (loopAt_doWhile hs hb h).passes _
  enter {pos next x label path place} h hn hp hplace := by
    rw [Stmt.path?] at hp
    obtain ⟨rest, hrest, rfl⟩ := Option.map_eq_some_iff.1 hp
    rw [Stmt.run, hn]
    apply (loopAt_doWhile hs hb h).resume
    rw [Stmt.lower] at h
    exact hb.enter h.left rfl hrest hplace

theorem loopAt_for {init step : List Expr} {condition : Option Expr} {pos : Nat} {x : Exits}
    (h : CodeAt code pos ((Stmt.for init condition step body).lower pos x)) :
    LoopAt s code (s.loop condition (body.run s) step) (pos + 2) (pos + body.size + 2) (pos + 1)
      (pos + body.size + 4) := by
  rw [Stmt.lower] at h
  have hstep := h.tail.tail.right (n := pos + body.size + 2) (by rw [body.length_lower]; omega)
  refine ⟨hb.run h.tail.tail.left (by omega), ?_, .test h.tail.head (hs.condition condition)⟩
  apply (Implements.effects hstep.head (hs.effects step)).behind
  intro _ m r m' hr
  exact Ends.goto hstep.tail.head hr

theorem «for» {init step : List Expr} {condition : Option Expr} :
    (Stmt.for init condition step body).Simulated s code where
  run {pos next x} h hn := by
    rw [Stmt.run, hn]
    have hl := loopAt_for hs hb h
    rw [Stmt.lower] at h
    apply (Implements.effects h.head (hs.effects init)).bind
    intro _
    exact hl.tested
  enter {pos next x label path place} h hn hp hplace := by
    rw [Stmt.path?] at hp
    obtain ⟨rest, hrest, rfl⟩ := Option.map_eq_some_iff.1 hp
    rw [Stmt.run, hn]
    apply (loopAt_for hs hb h).resume
    rw [Stmt.lower] at h
    exact hb.enter h.tail.tail.left (by omega) hrest hplace

end Loop

section Block

variable {body : List Stmt}

theorem blockAt (hd : Distinct code) (hb : ∀ t ∈ body, t.Simulated s code) {pos : Nat}
    {x : Exits} (h : CodeAt code pos (Stmt.lowers pos x body)) :
    BlockAt s code (s.block body (Stmt.runs s body))
      (fun i => pos + Stmt.sizes (body.take i)) x where
  statement i hi := by
    have ht := List.getElem?_eq_getElem (s.size_block body ▸ hi)
    rw [s.getElem_block ht]
    apply (hb _ (List.getElem_mem _)).run (h.statement ht)
    rw [Stmt.sizes_take_succ ht, Nat.add_assoc]
  label {label i} hi := by
    have ht := of_labelIndex?_eq_some hi
    have hp : code[pos + Stmt.sizes (body.take i)]? = some (.run (.label label) x) :=
      (h.statement ht).head
    refine ⟨s.size_block body ▸ labelIndex?_lt hi, _, hd.place? hp rfl, ?_⟩
    intro m r m' he
    rw [Stmt.sizes_take_succ ht] at he
    exact Ends.label hp he

theorem block (hd : Distinct code) (hb : ∀ t ∈ body, t.Simulated s code) :
    (Stmt.block body).Simulated s code where
  run {pos next x} h hn := by
    have hr := (blockAt hd hb h).run_none
    rw [s.size_block, List.take_length] at hr
    rw [Stmt.run, hn]
    exact hr
  enter {pos next x label path place} h hn hp hplace := by
    obtain ⟨i, t, rest, rfl, ht, hrest⟩ := of_pathIn?_eq_some hp
    have hi : i < (s.block body (Stmt.runs s body)).statements.size := by
      rw [s.size_block]
      exact (List.getElem?_eq_some_iff.1 ht).1
    have hr : Implements (Ends s code place)
        ((s.block body (Stmt.runs s body)).statements[i] (some rest))
        (follow s code (pos + Stmt.sizes (body.take (i + 1))) x) := by
      rw [s.getElem_block ht]
      apply (hb t (List.mem_of_getElem? ht)).enter (h.statement ht) _ hrest hplace
      rw [Stmt.sizes_take_succ ht, Nat.add_assoc]
    have hr := (blockAt hd hb h).run_some hi hr
    rw [s.size_block, List.take_length] at hr
    rw [Stmt.run, hn, Nat.zero_add]
    exact hr

end Block

end Stmt.Simulated

mutual

theorem Stmt.simulated (hs : s.Onward) (hd : Distinct code) : (t : Stmt) → t.Simulated s code
  | .label name => .label hs hd name
  | .ite _ yes none => .ite hs (yes.simulated hs hd)
  | .ite _ yes (some no) => .ite_else hs (yes.simulated hs hd) (no.simulated hs hd)
  | .while _ body => .while hs (body.simulated hs hd)
  | .doWhile body _ => .doWhile hs (body.simulated hs hd)
  | .for _ _ _ body => .for hs (body.simulated hs hd)
  | .block body => .block hd (Stmt.all_simulated hs hd body)
  | .declare _ _ _ | .assign _ _ _ | .expr _ | .return _ | .state _ | .jump _ | .break
  | .continue | .empty => .of_leaf hs (fun _ _ => rfl) rfl

theorem Stmt.all_simulated (hs : s.Onward) (hd : Distinct code) :
    (ts : List Stmt) → ∀ t ∈ ts, t.Simulated s code
  | [] => by simp
  | t :: ts => List.forall_mem_cons.2 ⟨t.simulated hs hd, Stmt.all_simulated hs hd ts⟩

end

end PrimScript
