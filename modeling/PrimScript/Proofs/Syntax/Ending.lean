import PrimScript.Proofs.Syntax.Dangling
import PrimScript.Proofs.Syntax.Progress
import PrimScript.Syntax.Parse.Script

/-! Parsers of statements and of scripts get on, and end, as those of expressions do.  Seen from a place among all
lexemes, a parser that reads something stops at a later place, and at their end at the latest; and a script is
read, or a fault is found that is one of the lexemes. -/

namespace PrimScript

namespace Parse

variable {n : Nat} {ts rest : List Lexeme}

theorem leaves_of_afterKeyword? {k : Keyword} (h : afterKeyword? k ts = some rest) : Leaves ts rest := by
  obtain ⟨l, rfl, -⟩ := exists_of_afterKeyword? h
  exact leaves_cons l rest

def Room (n : Nat) (ts : List Lexeme) : Prop := 17 * (ts.length + 1) ≤ n

theorem Room.exprs (h : Room n ts) : ExprsEnd n ts := (exprsEnd ts).mono h

theorem Room.suffix (h : Room n ts) (hrest : rest.IsSuffix ts) : Room n rest :=
  Nat.le_trans (Nat.mul_le_mul_left 17 (Nat.succ_le_succ hrest.length_le)) h

theorem Room.leaves (h : Room n ts) (hrest : Leaves ts rest) : Room n rest := h.suffix hrest.suffix

section Parts

variable (room : Room n ts)
include room

theorem ends_condition : Ends n (condition · ts) (Leaves ts ·.2) := by
  unfold condition
  refine .bind (ends_delimiter _) fun opened hopened => ?_
  refine .read (room.leaves hopened).exprs.expression fun e closing he => ?_
  refine .bind (ends_delimiter _) fun closed hclosed => ?_
  exact .ok (hopened.trans (he.trans hclosed))

theorem ends_initializer : Ends n (initializer · ts) (·.2.IsSuffix ts) := by
  unfold initializer
  cases hassign : afterSymbol? .assign ts with
  | some rest =>
    have hrest := leaves_of_afterSymbol? hassign
    refine .read (room.leaves hrest).exprs.expression fun e after hafter => ?_
    exact .ok (hrest.trans hafter).suffix
  | none => exact .ok List.suffix_rfl

theorem ends_forHead : Ends n (forHead · ts) (Leaves ts ·.2) := by
  unfold forHead
  refine .bind (ends_delimiter _) fun opened hopened => ?_
  refine .read ((room.leaves hopened).exprs.items _) fun init mid hinit => ?_
  refine .bind (ends_delimiter _) fun afterInit hafterInit => ?_
  have hafterInit := hopened.trans (.of_suffix hinit hafterInit)
  have testRead (test : Option Expr) (mid : List Lexeme) (hmid : mid.IsSuffix afterInit) :
      Ends n (fun fuel => do
        let rest ← delimiter .semicolon mid
        let step ← items fuel .closeParen rest
        let rest ← delimiter .closeParen step.2
        .ok ((init, test, step.1), rest)) (Leaves ts ·.2) := by
    refine .bind (ends_delimiter _) fun afterTest hafterTest => ?_
    have hafterTest := hafterInit.trans (.of_suffix hmid hafterTest)
    refine .read ((room.leaves hafterTest).exprs.items _) fun step closing hstep => ?_
    refine .bind (ends_delimiter _) fun closed hclosed => ?_
    exact .ok (hafterTest.trans (.of_suffix hstep hclosed))
  cases after? .semicolon afterInit with
  | some _ => exact testRead none afterInit List.suffix_rfl
  | none =>
    exact .read (room.leaves hafterInit).exprs.expression fun e mid he => testRead (some e) mid he.suffix

theorem ends_expressionStatement : Ends n (expressionStatement · ts) (Leaves ts ·.2) := by
  unfold expressionStatement
  refine .read room.exprs.expression fun e rest hrest => ?_
  refine .bind (ends_delimiter _) fun after hafter => ?_
  exact .ok (hrest.trans hafter)

theorem ends_declaration (t : ValueType) : Ends n (declaration · t ts) (Leaves ts ·.2) := by
  unfold declaration
  refine .read ends_identifier fun name rest hrest => ?_
  refine .read (ends_initializer (room.leaves hrest)) fun init mid hinit => ?_
  refine .bind (ends_delimiter _) fun after hafter => ?_
  exact .ok (hrest.trans (.of_suffix hinit hafter))

end Parts

theorem ends_stateName : Ends n (fun _ => stateName ts) (Leaves ts ·.2) := by
  unfold stateName
  cases hdefault : afterKeyword? .default ts with
  | some rest => exact .ok (leaves_of_afterKeyword? hdefault)
  | none => exact ends_identifier

theorem ends_namedEnd {name : List Lexeme → Parse (Parsed String)}
    (hname : Ends n (fun _ => name ts) (Leaves ts ·.2)) : Ends n (fun _ => namedEnd name ts) (Leaves ts ·.2) := by
  unfold namedEnd
  refine .read hname fun s rest hrest => ?_
  refine .bind (ends_delimiter _) fun after hafter => ?_
  exact .ok (hrest.trans hafter)

structure StmtsEnd (n : Nat) (ts : List Lexeme) : Prop where
  statement : Ends n (statement · ts) (Leaves ts ·.2)
  statements : Ends n (statements · ts) (Leaves ts ·.2)

theorem StmtsEnd.mono {m : Nat} (h : StmtsEnd m ts) (hmn : m ≤ n) : StmtsEnd n ts :=
  ⟨h.statement.mono hmn, h.statements.mono hmn⟩

section Stmts

variable (room : Room n ts) (behind : ∀ rest, Leaves ts rest → StmtsEnd n rest)
include room behind

theorem ends_statement : Ends (n + 1) (statement · ts) (Leaves ts ·.2) := by
  cases ts with
  | nil => exact .succ (.error (by simp))
  | cons l rest =>
    have hrest := leaves_cons l rest
    have hroom := room.leaves hrest
    have hends := behind rest hrest
    refine .succ ?_
    simp only [statement]
    cases ht : l.token with
    | delimiter d =>
      cases d with
      | semicolon => exact .ok hrest
      | openBrace =>
        refine .read hends.statements fun body after hafter => ?_
        exact .ok (hrest.trans hafter)
      | _ => exact ends_expressionStatement room
    | type t => exact (ends_declaration hroom t).imp fun r hr => hrest.trans hr
    | keyword k =>
      cases k with
      | «if» =>
        refine .read (ends_condition hroom) fun test body hbody => ?_
        have hbody := hrest.trans hbody
        refine .read (behind body hbody).statement fun thenBranch rest hthen => ?_
        have hthen := hbody.trans hthen
        dsimp only
        cases helse : afterKeyword? .else rest with
        | some rest =>
          have hrest := hthen.trans (leaves_of_afterKeyword? helse)
          refine .read (behind rest hrest).statement fun elseBranch after hafter => ?_
          exact .ok (hrest.trans hafter)
        | none => exact .ok hthen
      | «while» =>
        refine .read (ends_condition hroom) fun test body hbody => ?_
        have hbody := hrest.trans hbody
        refine .read (behind body hbody).statement fun s after hafter => ?_
        exact .ok (hbody.trans hafter)
      | «do» =>
        refine .read hends.statement fun body rest hbody => ?_
        have hbody := hrest.trans hbody
        dsimp only
        cases hwhile : afterKeyword? .while rest with
        | none => exact .error (by simp)
        | some rest =>
          have hwhile := hbody.trans (leaves_of_afterKeyword? hwhile)
          refine .read (ends_condition (room.leaves hwhile)) fun test mid htest => ?_
          refine .bind (ends_delimiter _) fun after hafter => ?_
          exact .ok (hwhile.trans (htest.trans hafter))
      | «for» =>
        refine .read (ends_forHead hroom) fun head body hbody => ?_
        have hbody := hrest.trans hbody
        refine .read (behind body hbody).statement fun s after hafter => ?_
        exact .ok (hbody.trans hafter)
      | «return» =>
        dsimp only
        cases hend : after? .semicolon rest with
        | some after => exact .ok (hrest.trans (leaves_of_after? hend))
        | none =>
          refine .read hroom.exprs.expression fun value mid hvalue => ?_
          refine .bind (ends_delimiter _) fun after hafter => ?_
          exact .ok (hrest.trans (hvalue.trans hafter))
      | state =>
        refine .read (ends_namedEnd ends_stateName) fun name after hafter => ?_
        exact .ok (hrest.trans hafter)
      | jump =>
        refine .read (ends_namedEnd ends_identifier) fun name after hafter => ?_
        exact .ok (hrest.trans hafter)
      | «break» =>
        refine .bind (ends_delimiter _) fun after hafter => ?_
        exact .ok (hrest.trans hafter)
      | «continue» =>
        refine .bind (ends_delimiter _) fun after hafter => ?_
        exact .ok (hrest.trans hafter)
      | _ => exact ends_expressionStatement room
    | symbol s =>
      cases s with
      | «at» =>
        refine .read (ends_namedEnd ends_identifier) fun name after hafter => ?_
        exact .ok (hrest.trans hafter)
      | _ => exact ends_expressionStatement room
    | _ => exact ends_expressionStatement room

theorem ends_statements : Ends (n + 2) (statements · ts) (Leaves ts ·.2) := by
  refine .succ ?_
  simp only [statements]
  cases hclose : after? .closeBrace ts with
  | some rest => exact .ok (leaves_of_after? hclose)
  | none =>
    cases ts with
    | nil => exact .error (by simp)
    | cons l rest =>
      refine .read (ends_statement room behind) fun s rest hrest => ?_
      refine .read ((behind rest hrest).statements.mono (Nat.le_succ n)) fun body after hafter => ?_
      exact .ok (hrest.trans hafter)

end Stmts

theorem stmtsEnd (ts : List Lexeme) : StmtsEnd (19 * (ts.length + 1)) ts := by
  induction h : ts.length using Nat.strongRecOn generalizing ts with
  | ind k ih =>
    have room : Room (19 * k + 17) ts := by
      unfold Room
      omega
    have behind (rest : List Lexeme) (hrest : Leaves ts rest) : StmtsEnd (19 * k + 17) rest := by
      have hlt := hrest.lt
      exact (ih rest.length (h ▸ hlt) rest rfl).mono (by omega)
    exact ⟨(ends_statement room behind).mono (by omega), ends_statements room behind⟩

theorem ends_block : Ends (19 * (ts.length + 1)) (block · ts) (Leaves ts ·.2) := by
  unfold block
  refine .bind (ends_delimiter _) fun opened hopened => ?_
  have hlt := hopened.lt
  exact ((stmtsEnd opened).statements.mono (by omega)).imp fun r hr => hopened.trans hr

theorem ends_param : Ends n (fun _ => param ts) (Leaves ts ·.2) := by
  unfold param
  cases htype : type? ts with
  | none => exact .error (by simp)
  | some r =>
    obtain ⟨t, rest⟩ := r
    refine .read ends_identifier fun name after hafter => ?_
    exact .ok ((leaves_of_type? htype).trans hafter)

theorem ends_someParams (ts : List Lexeme) : Ends (ts.length + 1) (someParams · ts) (Leaves ts ·.2) := by
  induction h : ts.length using Nat.strongRecOn generalizing ts with
  | ind k ih =>
    refine .succ ?_
    simp only [someParams]
    refine .read ends_param fun p rest hrest => ?_
    dsimp only
    cases hcomma : after? .comma rest with
    | some rest =>
      have hrest := hrest.trans (leaves_of_after? hcomma)
      have hlt : rest.length < k := h ▸ hrest.lt
      refine .read ((ih rest.length hlt rest rfl).mono hlt) fun ps after hafter => ?_
      exact .ok (hrest.trans hafter)
    | none =>
      refine .bind (ends_delimiter _) fun after hafter => ?_
      exact .ok (hrest.trans hafter)

theorem ends_params : Ends (ts.length + 1) (params · ts) (Leaves ts ·.2) := by
  unfold params
  refine .bind (ends_delimiter _) fun opened hopened => ?_
  have hlt := hopened.lt
  cases hclose : after? .closeParen opened with
  | some rest => exact .ok (hopened.trans (leaves_of_after? hclose))
  | none => exact ((ends_someParams opened).mono (by omega)).imp fun r hr => hopened.trans hr

theorem ends_routine : Ends (19 * (ts.length + 1)) (routine · ts) (Leaves ts ·.2) := by
  unfold routine
  refine .read (ends_params.mono (by omega)) fun ps rest hrest => ?_
  have hlt : rest.length < ts.length := hrest.lt
  refine .read (ends_block.mono (by omega)) fun body after hafter => ?_
  exact .ok (hrest.trans hafter)

theorem ends_handlers (known : NameMap Handler) (ts : List Lexeme) :
    Ends (20 * (ts.length + 1)) (handlers · known ts) (Leaves ts ·.2) := by
  induction h : ts.length using Nat.strongRecOn generalizing known ts with
  | ind k ih =>
    refine .succ (n := 20 * k + 19) ?_
    simp only [handlers]
    cases hclose : after? .closeBrace ts with
    | some rest => exact .ok (leaves_of_after? hclose)
    | none =>
      refine .read ends_identifier fun event named hnamed => ?_
      have hlt : named.length < k := h ▸ hnamed.lt
      dsimp only
      refine .read (ends_routine.mono (by omega)) fun r rest hrest => ?_
      obtain ⟨ps, body⟩ := r
      have hrest := hnamed.trans hrest
      have hlt : rest.length < k := h ▸ hrest.lt
      dsimp only
      cases known.contains event with
      | true => exact .error (by simp)
      | false => exact ((ih rest.length hlt _ rest rfl).mono (by omega)).imp fun r hr => hrest.trans hr

theorem ends_stateBody : Ends (20 * (ts.length + 1)) (stateBody · ts) (Leaves ts ·.2) := by
  unfold stateBody
  refine .bind (ends_delimiter _) fun opened hopened => ?_
  have hlt := hopened.lt
  exact ((ends_handlers [] opened).mono (by omega)).imp fun r hr => hopened.trans hr

section Definitions

variable {s : Script} {name : String}

theorem ends_addState {state : NameMap Handler} : Ends n (fun _ => addState s name state ts) fun _ => True := by
  unfold addState
  split
  · exact .error (by simp)
  · exact .ok trivial

theorem ends_addFunction {f : Function} : Ends n (fun _ => addFunction s name f ts) fun _ => True := by
  unfold addFunction
  split
  · exact .error (by simp)
  · exact .ok trivial

theorem ends_addGlobal {g : Global} : Ends n (fun _ => addGlobal s g ts) fun _ => True := by
  unfold addGlobal
  split
  · exact .error (by simp)
  · exact .ok trivial

theorem ends_define : Ends (20 * (ts.length + 1)) (define · s ts) (Leaves ts ·.2) := by
  cases ts with
  | nil => exact .error (by simp)
  | cons l rest =>
    have hrest := leaves_cons l rest
    have hlt := hrest.lt
    have room : Room (20 * ((l :: rest).length + 1)) (l :: rest) := by
      unfold Room
      omega
    simp only [define]
    cases ht : l.token with
    | keyword k =>
      cases k with
      | default =>
        refine .read (ends_stateBody.mono (by omega)) fun state after hafter => ?_
        refine .bind ends_addState fun s _ => ?_
        exact .ok (hrest.trans hafter)
      | state =>
        refine .read ends_identifier fun name named hnamed => ?_
        have hnamed := hrest.trans hnamed
        have hlt : named.length < (l :: rest).length := hnamed.lt
        dsimp only
        refine .read (ends_stateBody.mono (by omega)) fun state after hafter => ?_
        refine .bind ends_addState fun s _ => ?_
        exact .ok (hnamed.trans hafter)
      | _ => exact .error (by simp)
    | type t =>
      refine .read ends_identifier fun name named hnamed => ?_
      have hnamed := hrest.trans hnamed
      have hlt : named.length < (l :: rest).length := hnamed.lt
      dsimp only
      cases after? .openParen named with
      | some _ =>
        refine .read (ends_routine.mono (by omega)) fun r after hafter => ?_
        obtain ⟨ps, body⟩ := r
        refine .bind ends_addFunction fun s _ => ?_
        exact .ok (hnamed.trans hafter)
      | none =>
        refine .read (ends_initializer (room.leaves hnamed)) fun init mid hinit => ?_
        refine .bind (ends_delimiter _) fun after hafter => ?_
        refine .bind ends_addGlobal fun s _ => ?_
        exact .ok (hnamed.trans (.of_suffix hinit hafter))
    | ident name =>
      refine .read (ends_routine.mono (by omega)) fun r after hafter => ?_
      obtain ⟨ps, body⟩ := r
      refine .bind ends_addFunction fun s _ => ?_
      exact .ok (hrest.trans hafter)
    | _ => exact .error (by simp)

end Definitions

theorem ends_definitions (s : Script) (ts : List Lexeme) :
    Ends (21 * (ts.length + 1)) (definitions · s ts) fun _ => True := by
  induction h : ts.length using Nat.strongRecOn generalizing s ts with
  | ind k ih =>
    cases ts with
    | nil => exact ⟨.ok s, fun fuel _ => by cases fuel <;> rfl, trivial⟩
    | cons l rest =>
      refine .succ (n := 21 * k + 20) ?_
      simp only [definitions]
      refine .read (ends_define.mono (by omega)) fun s after hafter => ?_
      have hlt : after.length < k := h ▸ hafter.lt
      exact (ih after.length hlt s after rfl).mono (by omega)

/-- From a place on, with as many steps as are allowed or more, the parser always finds the same fault, or it always
reads the same and stops at a later place. -/
def Advances {α : Type} (ts : List Lexeme) (place : Nat) (parser : Nat → List Lexeme → Parse (Parsed α)) : Prop :=
  Ends (steps ts) (parser · (ts.drop place)) fun r =>
    ∃ next, place < next ∧ next ≤ ts.length ∧ r.2 = ts.drop next

theorem Leaves.exists_next {place : Nat} (h : Leaves (ts.drop place) rest) :
    ∃ next, place < next ∧ next ≤ ts.length ∧ rest = ts.drop next := by
  have hlt := h.lt
  rw [List.length_drop] at hlt
  exact ⟨ts.length - rest.length, by omega, Nat.sub_le _ _,
    List.suffix_iff_eq_drop.1 (h.suffix.trans (List.drop_suffix place ts))⟩

theorem le_steps_drop (ts : List Lexeme) (place : Nat) : 21 * ((ts.drop place).length + 1) ≤ steps ts := by
  rw [List.length_drop, steps]
  omega

theorem advances {α : Type} {parser : Nat → List Lexeme → Parse (Parsed α)} {m place : Nat}
    (h : Ends m (parser · (ts.drop place)) (Leaves (ts.drop place) ·.2))
    (hm : m ≤ 21 * ((ts.drop place).length + 1)) : Advances ts place parser :=
  (h.mono (Nat.le_trans hm (le_steps_drop ts place))).imp fun _ hr => hr.exists_next

/-- Whatever has been read before them, the loops end: those over definitions, handlers, statements, parameters,
listed expressions, operators, suffixes and components. -/
structure LoopsEnd (n : Nat) (ts : List Lexeme) : Prop where
  definitions : ∀ s, Ends n (definitions · s ts) fun _ => True
  handlers : ∀ known, Ends n (handlers · known ts) fun _ => True
  statements : Ends n (statements · ts) fun _ => True
  someParams : Ends n (someParams · ts) fun _ => True
  someItems : Ends n (someItems · ts) fun _ => True
  chain : ∀ level e, Ends n (chain · level e ts) fun _ => True
  suffixes : ∀ e, Ends n (suffixes · e ts) fun _ => True
  components : ∀ more, Ends n (components · more ts) fun _ => True

theorem loopsEnd (hn : 21 * (ts.length + 1) ≤ n) : LoopsEnd n ts where
  definitions s := (ends_definitions s ts).mono hn
  handlers known := ((ends_handlers known ts).mono (by omega)).imp fun _ _ => trivial
  statements := ((stmtsEnd ts).statements.mono (by omega)).imp fun _ _ => trivial
  someParams := ((ends_someParams ts).mono (by omega)).imp fun _ _ => trivial
  someItems := ((exprsEnd ts).someItems.mono (by omega)).imp fun _ _ => trivial
  chain level e := (((exprsEnd ts).chain level e).mono (by omega)).imp fun _ _ => trivial
  suffixes e := (((exprsEnd ts).suffixes e).mono (by omega)).imp fun _ _ => trivial
  components more := (((exprsEnd ts).components more).mono (by omega)).imp fun _ _ => trivial

end Parse

/-- Parsing gets on and ends, whatever the lexemes are.  From every place on, a parser that reads something stops at
a later place, and at the end of the lexemes at the latest; no loop goes on for ever; and a script is read, or a fault
is found, neither of which comes from the steps that are allowed. -/
theorem parsing_ends (ts : List Lexeme) :
    (∀ place, Parse.Advances ts place Parse.statement ∧ Parse.Advances ts place Parse.expression ∧
      Parse.Advances ts place Parse.block ∧ Parse.Advances ts place Parse.params ∧
      Parse.Advances ts place Parse.routine ∧ Parse.Advances ts place Parse.stateBody) ∧
    (∀ place, Parse.LoopsEnd (Parse.steps ts) (ts.drop place)) ∧
    (∀ e, Script.parse ts = .error e → e.fault ≠ .nesting) ∧
    ∀ fuel, Parse.steps ts ≤ fuel → Parse.definitions fuel .empty ts = Script.parse ts := by
  refine ⟨fun place => ?_, fun place => Parse.loopsEnd (Parse.le_steps_drop ts place), ?_⟩
  · have hexprs := Parse.exprsEnd (ts.drop place)
    have hstmts := Parse.stmtsEnd (ts.drop place)
    exact ⟨Parse.advances hstmts.statement (by omega), Parse.advances hexprs.expression (by omega),
      Parse.advances Parse.ends_block (by omega), Parse.advances Parse.ends_params (by omega),
      Parse.advances Parse.ends_routine (by omega), Parse.advances Parse.ends_stateBody (by omega)⟩
  · obtain ⟨r, hr, hfault⟩ := (Parse.ends_definitions .empty ts).mono (Parse.le_steps_drop ts 0)
    have hparse : Script.parse ts = r := hr _ (Nat.le_refl _)
    refine ⟨fun e he => ?_, fun fuel hfuel => (hr fuel hfuel).trans hparse.symm⟩
    rw [← hparse, he] at hfault
    exact hfault

end PrimScript
