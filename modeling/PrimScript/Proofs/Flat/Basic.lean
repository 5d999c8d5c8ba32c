import PrimScript.Eval.Stmt

/-! Bodies as flat code.  A statement becomes a piece of a list of instructions, with the places that
control goes to written out, and a machine goes from place to place in the list until the run ends.
It knows of no blocks and of no limits: a jump leads to its label wherever that is. -/

namespace PrimScript

namespace Flat

/-- Where `break` and `continue` lead to; without a loop around them they end the run. -/
structure Exits where
  break? : Option Nat
  continue? : Option Nat

inductive Instr
  /-- A statement without statements in it. -/
  | run (t : Stmt) (x : Exits) : Instr
  | effects (es : List Expr) : Instr
  /-- Goes on when the condition holds, and else at another place. -/
  | test (condition : Option Expr) (other : Nat) : Instr
  | goto (target : Nat) : Instr

end Flat

open Flat

mutual

def Stmt.size : Stmt → Nat
  | .ite _ yes none => yes.size + 1
  | .ite _ yes (some no) => yes.size + no.size + 2
  | .while _ body => body.size + 2
  | .doWhile body _ => body.size + 2
  | .for _ _ _ body => body.size + 4
  | .block body => Stmt.sizes body
  | _ => 1

def Stmt.sizes : List Stmt → Nat
  | [] => 0
  | t :: ts => t.size + Stmt.sizes ts

end

mutual

def Stmt.lower (pos : Nat) (x : Exits) : Stmt → List Instr
  | .ite condition yes none =>
    .test (some condition) (pos + yes.size + 1) :: yes.lower (pos + 1) x
  | .ite condition yes (some no) =>
    .test (some condition) (pos + yes.size + 2) ::
      (yes.lower (pos + 1) x ++
        .goto (pos + yes.size + no.size + 2) :: no.lower (pos + yes.size + 2) x)
  | .while condition body =>
    .test (some condition) (pos + body.size + 2) ::
      (body.lower (pos + 1) ⟨some (pos + body.size + 2), some pos⟩ ++ [.goto pos])
  | .doWhile body condition =>
    body.lower pos ⟨some (pos + body.size + 2), some (pos + body.size)⟩ ++
      [.test (some condition) (pos + body.size + 2), .goto pos]
  | .for init condition step body =>
    .effects init :: .test condition (pos + body.size + 4) ::
      (body.lower (pos + 2) ⟨some (pos + body.size + 4), some (pos + body.size + 2)⟩ ++
        [.effects step, .goto (pos + 1)])
  | .block body => Stmt.lowers pos x body
  | t => [.run t x]

def Stmt.lowers (pos : Nat) (x : Exits) : List Stmt → List Instr
  | [] => []
  | t :: ts => t.lower pos x ++ Stmt.lowers (pos + t.size) x ts

end

namespace Flat

def program (body : List Stmt) : List Instr := Stmt.lowers 0 ⟨none, none⟩ body

def Instr.label? : Instr → Option String
  | .run (.label name) _ => some name
  | _ => none

def place? (code : List Instr) (label : String) : Option Nat :=
  code.findIdx? (·.label? = some label)

inductive Control
  | pass (next : Nat) : Control
  | stop (flow : Flow) : Control

/-- Where control goes when a statement ends with `flow` that is followed by the place `next`. -/
def control (code : List Instr) (next : Nat) (x : Exits) : Flow → Eval Control
  | .normal => pure (.pass next)
  | .break => pure (x.break?.elim (.stop .break) .pass)
  | .continue => pure (x.continue?.elim (.stop .continue) .pass)
  | .jump label =>
    match place? code label with
    | some place => pure (.pass place)
    | none => Eval.fail (.undefinedLabel label)
  | flow => pure (.stop flow)

def condition (s : Scope) : Option Expr → Eval Bool
  | some c => s.test c
  | none => pure true

def Instr.step (s : Scope) (code : List Instr) (pc : Nat) : Instr → Eval Control
  | .run t x => do control code (pc + 1) x (← t.run s none)
  | .effects es => do
    s.effects es
    pure (.pass (pc + 1))
  | .test c other => do return .pass (if ← condition s c then pc + 1 else other)
  | .goto target => pure (.pass target)

/-- One step of the machine.  The run ends behind the code. -/
def step (s : Scope) (code : List Instr) (pc : Nat) : Eval Control :=
  match code[pc]? with
  | some i => i.step s code pc
  | none => pure (.stop .normal)

/-- What a run of the code from a place on comes to, and the machine after it. -/
inductive Ends (s : Scope) (code : List Instr) :
    Nat → Machine → Except Halt Flow → Machine → Prop
  | pass {pc next m n r m'} : (step s code pc).on m = (.ok (.pass next), n) →
    Ends s code next n r m' → Ends s code pc m r m'
  | stop {pc m flow m'} : (step s code pc).on m = (.ok (.stop flow), m') →
    Ends s code pc m (.ok flow) m'
  | halt {pc m h m'} : (step s code pc).on m = (.error h, m') →
    Ends s code pc m (.error h) m'

theorem Ends.unique {s : Scope} {code : List Instr} {pc : Nat} {m m₁ m₂ : Machine}
    {r₁ r₂ : Except Halt Flow} (h₁ : Ends s code pc m r₁ m₁) (h₂ : Ends s code pc m r₂ m₂) :
    r₁ = r₂ ∧ m₁ = m₂ := by
  induction h₁ with
  | pass hs _ ih =>
    cases h₂ with
    | pass hs' h' =>
      cases hs.symm.trans hs'
      exact ih h'
    | stop hs' => cases hs.symm.trans hs'
    | halt hs' => cases hs.symm.trans hs'
  | stop hs =>
    cases h₂ with
    | pass hs' _ => cases hs.symm.trans hs'
    | stop hs' =>
      cases hs.symm.trans hs'
      exact ⟨rfl, rfl⟩
    | halt hs' => cases hs.symm.trans hs'
  | halt hs =>
    cases h₂ with
    | pass hs' _ => cases hs.symm.trans hs'
    | stop hs' => cases hs.symm.trans hs'
    | halt hs' =>
      cases hs.symm.trans hs'
      exact ⟨rfl, rfl⟩

end Flat

end PrimScript
