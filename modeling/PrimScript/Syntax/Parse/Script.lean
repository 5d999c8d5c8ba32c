import PrimScript.Syntax.Parse.Stmt

/-! Parsing scripts.  A name is defined once as a global variable, once as a function, once as a
state, and once as a handler of each state. -/

namespace PrimScript

namespace Parse

def param (ts : List Lexeme) : Parse (Parsed Param) :=
  match type? ts with
  | none => .error ⟨.paramType, ts⟩
  | some (t, rest) => do
    let (name, rest) ← identifier rest
    .ok (⟨t, name⟩, rest)

def someParams : (fuel : Nat) → List Lexeme → Parse (Parsed (List Param))
  | 0, ts => .error ⟨.nesting, ts⟩
  | fuel + 1, ts => do
    let (p, rest) ← param ts
    match after? .comma rest with
    | some rest =>
      let (ps, rest) ← someParams fuel rest
      .ok (p :: ps, rest)
    | none =>
      let rest ← delimiter .closeParen rest
      .ok ([p], rest)

def params (fuel : Nat) (ts : List Lexeme) : Parse (Parsed (List Param)) := do
  let rest ← delimiter .openParen ts
  match after? .closeParen rest with
  | some rest => .ok ([], rest)
  | none => someParams fuel rest

def routine (fuel : Nat) (ts : List Lexeme) : Parse (Parsed (List Param × List Stmt)) := do
  let (ps, rest) ← params fuel ts
  let (body, rest) ← block fuel rest
  .ok ((ps, body), rest)

def handlers : (fuel : Nat) → NameMap Handler → List Lexeme → Parse (Parsed (NameMap Handler))
  | 0, _, ts => .error ⟨.nesting, ts⟩
  | fuel + 1, known, ts =>
    match after? .closeBrace ts with
    | some rest => .ok (known, rest)
    | none => do
      let (event, rest) ← identifier ts
      let ((ps, body), rest) ← routine fuel rest
      if known.contains event then .error ⟨.duplicate .handler event, ts⟩
      else handlers fuel (known.insert event ⟨ps, body⟩) rest

def stateBody (fuel : Nat) (ts : List Lexeme) : Parse (Parsed (NameMap Handler)) := do
  let rest ← delimiter .openBrace ts
  handlers fuel [] rest

def addState (s : Script) (name : String) (state : NameMap Handler) (ts : List Lexeme) :
    Parse Script :=
  if s.states.contains name then .error ⟨.duplicate .state name, ts⟩
  else .ok { s with states := s.states.insert name state }

def addFunction (s : Script) (name : String) (f : Function) (ts : List Lexeme) :
    Parse Script :=
  if s.functions.contains name then .error ⟨.duplicate .function name, ts⟩
  else .ok { s with functions := s.functions.insert name f }

def addGlobal (s : Script) (g : Global) (ts : List Lexeme) : Parse Script :=
  if s.globals.any (·.name = g.name) then .error ⟨.duplicate .global g.name, ts⟩
  else .ok { s with globals := s.globals ++ [g] }

def define (fuel : Nat) (s : Script) (ts : List Lexeme) : Parse (Parsed Script) :=
  match ts with
  | [] => .error ⟨.definition, ts⟩
  | l :: rest =>
    match l.token with
    | .keyword .default => do
      let (state, rest) ← stateBody fuel rest
      let s ← addState s defaultState state ts
      .ok (s, rest)
    | .keyword .state => do
      let (name, rest) ← identifier rest
      let (state, rest) ← stateBody fuel rest
      let s ← addState s name state ts
      .ok (s, rest)
    | .type t => do
      let (name, rest) ← identifier rest
      match after? .openParen rest with
      | some _ =>
        let ((ps, body), rest) ← routine fuel rest
        let s ← addFunction s name ⟨some t, ps, body⟩ ts
        .ok (s, rest)
      | none =>
        let (init, rest) ← initializer fuel rest
        let rest ← delimiter .semicolon rest
        let s ← addGlobal s ⟨name, t, init⟩ ts
        .ok (s, rest)
    | .ident name => do
      let ((ps, body), rest) ← routine fuel rest
      let s ← addFunction s name ⟨none, ps, body⟩ ts
      .ok (s, rest)
    | _ => .error ⟨.definition, ts⟩

def definitions : (fuel : Nat) → Script → List Lexeme → Parse Script
  | _, s, [] => .ok s
  | 0, _, ts => .error ⟨.nesting, ts⟩
  | fuel + 1, s, ts => do
    let (s, rest) ← define fuel s ts
    definitions fuel s rest

end Parse

def Script.parse (ts : List Lexeme) : Parse Script :=
  Parse.definitions (Parse.steps ts) .empty ts

end PrimScript
