import PrimScript.Eval.Basic

/-! Where control goes after a statement, and the constructs that decide it: loops and blocks.  How
often a loop may be passed and a block may jump back is limited, so that every run ends. -/

namespace PrimScript

inductive Flow
  | normal : Flow
  | break : Flow
  | continue : Flow
  | return (v : Option Value) : Flow
  | state (target : String) : Flow
  | jump (label : String) : Flow

/-- Where control enters a statement: at its start, or at a label inside of it.  The way to the label
is given by the places of the statements around it: the index in a block, `0` and `1` for the
branches of an `if`, and `0` for the body of a loop. -/
abbrev Entry := Option (List Nat)

namespace Flow

def stated (target : String) : Eval Flow := do
  modify (·.note (.stated target))
  pure (.state target)

def capped (what : String) (cap : Nat) : Eval Flow := do
  modify (·.note .capped)
  Eval.warn .loopCapExceeded s!"{what} aborted after {cap} iterations"
  pure .normal

end Flow

structure Loop where
  cap : Nat
  test : Eval Bool
  body : Entry → Eval Flow
  step : Eval Unit

namespace Loop

@[always_inline, inline] def after (flow : Flow) (next : Eval Flow) : Eval Flow := do
  match flow with
  | .break => pure .normal
  | .return v => pure (.return v)
  | .state target => pure (.state target)
  | .jump label => pure (.jump label)
  | .normal | .continue =>
    match ← Eval.takeRequest with
    | some target => pure (.state target)
    | none => next

/-- Passes of the loop, each after the first one behind the test.  At most `left` more of them
are made. -/
def passes (l : Loop) : (left : Nat) → Eval Flow
  | 0 => Flow.capped "loop" l.cap
  | left + 1 => do
    after (← l.body none) do
      l.step
      if ← l.test then l.passes left else pure .normal

def tested (l : Loop) : Eval Flow := do if ← l.test then l.passes l.cap else pure .normal

def resume (l : Loop) (path : List Nat) : Eval Flow := do
  after (← l.body (some path)) do
    l.step
    l.tested

end Loop

structure Block where
  cap : Nat
  label? : String → Option Nat
  statements : Array (Entry → Eval Flow)

namespace Block

/-- Runs the statements from the place `pc` on, of which the first may have been run already.
Jumps to labels among the statements are made here, and at most `left` of them back. -/
def runFrom (b : Block) (left pc : Nat) (first : Option Flow) : Eval Flow :=
  if h : pc < b.statements.size then do
    let flow ← match first with
      | some flow => pure flow
      | none => b.statements[pc] none
    match ← Eval.takeRequest with
    | some target => pure (.state target)
    | none =>
      match flow with
      | .normal => b.runFrom left (pc + 1) none
      | .jump label =>
        match b.label? label with
        | none => pure (.jump label)
        | some target =>
          if pc < target then b.runFrom left (target + 1) none
          else
            match left with
            | 0 => Flow.capped s!"jump to `{label}`" b.cap
            | left + 1 => b.runFrom left (target + 1) none
      | .break => pure .break
      | .continue => pure .continue
      | .return v => pure (.return v)
      | .state target => pure (.state target)
  else pure .normal
  termination_by (left, b.statements.size - pc)

def run (b : Block) : Entry → Eval Flow
  | none => b.runFrom b.cap 0 none
  | some [] => pure .normal
  | some (i :: path) =>
    match b.statements[i]? with
    | none => Eval.fail (.lostIndex i)
    | some statement => do
      let flow ← statement (some path)
      b.runFrom b.cap i (some flow)

end Block

end PrimScript
