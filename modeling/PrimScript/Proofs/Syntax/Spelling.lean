import PrimScript.Proofs.Syntax.Printing
import PrimScript.Syntax.Parse.Expr

/-! What a parser sees of the first lexemes: of those that spell given tokens, and of those after
them. -/

namespace PrimScript

open Parse

def Spells (ts : List Token) (ls ks : List Lexeme) : Prop :=
  ∃ pre, pre.map (·.token) = ts ∧ ls = pre ++ ks

def Starts (t : Token) (ls ks : List Lexeme) : Prop := ∃ l, l.token = t ∧ ls = l :: ks

section
variable {t : Token} {ts us : List Token} {ls ks : List Lexeme}

@[simp] theorem spells_nil : Spells [] ls ks ↔ ls = ks := by simp [Spells]

@[simp] theorem spells_cons :
    Spells (t :: ts) ls ks ↔ ∃ mid, Starts t ls mid ∧ Spells ts mid ks := by
  simp only [Spells, Starts, List.map_eq_cons_iff]
  constructor
  · rintro ⟨_, ⟨l, pre, rfl, hl, hpre⟩, rfl⟩
    exact ⟨pre ++ ks, ⟨l, hl, rfl⟩, pre, hpre, rfl⟩
  · rintro ⟨_, ⟨l, hl, rfl⟩, pre, hpre, rfl⟩
    exact ⟨l :: pre, ⟨l, pre, rfl, hl, hpre⟩, rfl⟩

@[simp] theorem spells_append :
    Spells (ts ++ us) ls ks ↔ ∃ mid, Spells ts ls mid ∧ Spells us mid ks := by
  simp only [Spells, List.map_eq_append_iff]
  constructor
  · rintro ⟨_, ⟨pre, pre', rfl, hpre, hpre'⟩, rfl⟩
    exact ⟨pre' ++ ks, ⟨pre, hpre, by simp⟩, pre', hpre', rfl⟩
  · rintro ⟨_, ⟨pre, hpre, rfl⟩, pre', hpre', rfl⟩
    exact ⟨pre ++ pre', ⟨pre, pre', rfl, hpre, hpre'⟩, by simp⟩

end

section
variable {ls ks : List Lexeme} {d e : Delimiter} {s : Symbol} {name : String}

theorem Starts.after? (h : Starts (.delimiter d) ls ks) : after? d ls = some ks := by
  obtain ⟨l, hl, rfl⟩ := h
  simp [Parse.after?, hl]

theorem Starts.after?_ne (h : Starts (.delimiter d) ls ks) (hd : d ≠ e) : Parse.after? e ls = none := by
  obtain ⟨l, hl, rfl⟩ := h
  simp [Parse.after?, hl, hd]

theorem Starts.after?_symbol (h : Starts (.symbol s) ls ks) : Parse.after? d ls = none := by
  obtain ⟨l, hl, rfl⟩ := h
  simp [Parse.after?, hl]

theorem Starts.delimiter (h : Starts (.delimiter d) ls ks) : Parse.delimiter d ls = .ok ks := by
  simp [Parse.delimiter, h.after?]

theorem Starts.symbol? (h : Starts (.symbol s) ls ks) : symbol? ls = some (s, ks) := by
  obtain ⟨l, hl, rfl⟩ := h
  simp [Parse.symbol?, hl]

theorem Starts.symbol?_delimiter (h : Starts (.delimiter d) ls ks) : Parse.symbol? ls = none := by
  obtain ⟨l, hl, rfl⟩ := h
  simp [Parse.symbol?, hl]

theorem Starts.afterSymbol? (h : Starts (.symbol s) ls ks) : afterSymbol? s ls = some ks := by
  simp [Parse.afterSymbol?, h.symbol?]

theorem Starts.afterSymbol?_delimiter (h : Starts (.delimiter d) ls ks) :
    Parse.afterSymbol? s ls = none := by
  simp [Parse.afterSymbol?, h.symbol?_delimiter]

theorem Starts.unaryAt? {op : UnaryOp} (h : Starts (.symbol op.sign) ls ks) :
    unaryAt? ls = some (op, ks) := by
  simp [Parse.unaryAt?, h.symbol?]

theorem Starts.stepAt? {op : StepOp} (h : Starts (.symbol op.sign) ls ks) :
    stepAt? ls = some (op, ks) := by
  simp [Parse.stepAt?, h.symbol?]

theorem Starts.binaryAt? {op : BinaryOp} (h : Starts (.symbol op.sign) ls ks) :
    binaryAt? op.level ls = some (op, ks) := by
  simp [Parse.binaryAt?, h.symbol?]

theorem Starts.assignAt? {op : AssignOp} (h : Starts (.symbol op.sign) ls ks) :
    assignAt? ls = some (op, ks) := by
  simp [Parse.assignAt?, h.symbol?]

theorem Starts.identifier (h : Starts (.ident name) ls ks) : identifier ls = .ok (name, ks) := by
  obtain ⟨l, hl, rfl⟩ := h
  simp [Parse.identifier, hl]

theorem Starts.type? {type : ValueType} (h : Starts (.type type) ls ks) :
    type? ls = some (type, ks) := by
  obtain ⟨l, hl, rfl⟩ := h
  simp [Parse.type?, hl]

theorem Starts.castAt? {type : ValueType} {mid mid' : List Lexeme}
    (opens : Starts (.delimiter .openParen) ls mid) (word : Starts (.type type) mid mid')
    (closes : Starts (.delimiter .closeParen) mid' ks) : castAt? ls = some (type, ks) := by
  simp [Parse.castAt?, opens.after?, word.type?, closes.after?]

end

def Token.opens : Token → Bool
  | .integer _ => true
  | .float _ => true
  | .string _ => true
  | .ident _ => true
  | .delimiter d => d = .openParen || d = .openBracket
  | .symbol s => s = .less
  | _ => false

def Token.begins : Token → Bool
  | .symbol s => s = .less || s.unary?.isSome || s.step?.isSome
  | t => t.opens

theorem Token.begins_of_opens {t : Token} (h : t.opens) : t.begins := by
  cases t <;> simp_all [begins, opens]

def Begins : List Token → Prop
  | t :: _ => t.begins
  | [] => False

def Opens : List Token → Prop
  | .delimiter .openParen :: ts => Begins ts
  | t :: _ => t.opens
  | [] => False

section
variable {ts us : List Token} {ls ks : List Lexeme}

theorem Begins.append (h : Begins ts) : Begins (ts ++ us) := by
  cases ts <;> simp_all [Begins]

theorem Opens.append (h : Opens ts) : Opens (ts ++ us) := by
  unfold Opens at h
  split at h
  · exact Begins.append h
  · simp_all [Opens]
  · simp at h

theorem Opens.begins (h : Opens ts) : Begins ts := by
  unfold Opens at h
  split at h
  · rfl
  · exact Token.begins_of_opens h
  · simp at h

theorem Begins.starts (h : Begins ts) (written : Spells ts ls ks) :
    ∃ t rest, Starts t ls rest ∧ t.begins := by
  cases ts with
  | nil => simp [Begins] at h
  | cons t ts =>
    obtain ⟨rest, hs, -⟩ := spells_cons.mp written
    exact ⟨t, rest, hs, h⟩

theorem Begins.after?_eq_none {stop : Delimiter} (h : Begins ts) (written : Spells ts ls ks)
    (closing : stop ≠ .openParen ∧ stop ≠ .openBracket) : after? stop ls = none := by
  obtain ⟨t, rest, hs, ht⟩ := h.starts written
  obtain ⟨l, rfl, rfl⟩ := hs
  cases hl : l.token <;> simp_all [Parse.after?, Token.begins, Token.opens]
  grind

theorem Begins.type?_eq_none (h : Begins ts) (written : Spells ts ls ks) : type? ls = none := by
  obtain ⟨t, rest, hs, ht⟩ := h.starts written
  obtain ⟨l, rfl, rfl⟩ := hs
  cases hl : l.token <;> simp_all [Parse.type?, Token.begins, Token.opens]

theorem Opens.symbol? (h : Opens ts) (written : Spells ts ls ks) :
    symbol? ls = none ∨ ∃ rest, symbol? ls = some (.less, rest) := by
  cases ts with
  | nil => simp [Opens] at h
  | cons t ts =>
    obtain ⟨rest, ⟨l, rfl, rfl⟩, -⟩ := spells_cons.mp written
    cases hl : l.token <;> simp_all [Parse.symbol?, Opens, Token.opens]

theorem Opens.unaryAt?_eq_none (h : Opens ts) (written : Spells ts ls ks) :
    unaryAt? ls = none := by
  obtain hs | ⟨rest, hs⟩ := h.symbol? written <;> simp [Parse.unaryAt?, hs, Symbol.unary?]

theorem Opens.stepAt?_eq_none (h : Opens ts) (written : Spells ts ls ks) :
    stepAt? ls = none := by
  obtain hs | ⟨rest, hs⟩ := h.symbol? written <;> simp [Parse.stepAt?, hs, Symbol.step?]

theorem Opens.castAt?_eq_none (h : Opens ts) (written : Spells ts ls ks) :
    castAt? ls = none := by
  unfold Opens at h
  split at h
  · obtain ⟨rest, opens, inner⟩ := spells_cons.mp written
    simp [Parse.castAt?, opens.after?, Begins.type?_eq_none h inner]
  · next t _ not_parenthesis =>
    obtain ⟨rest, ⟨l, rfl, rfl⟩, -⟩ := spells_cons.mp written
    cases hl : l.token <;> simp_all [Parse.castAt?, Parse.after?, Token.opens]
  · simp at h

end

/-- Would the token, after an expression of the rank, be read as part of it? -/
def Token.extends (rank : Nat) : Token → Bool
  | .symbol s =>
    s = .dot || s.step?.isSome || s.binary?.any (fun op => rank ≤ op.level + 1) ||
      (rank = 0 && s.assign?.isSome)
  | .delimiter d => d = .openBracket || d = .openParen
  | _ => false

/-- The lexemes do not go on with an expression of the rank. -/
def StopsAt (rank : Nat) (ks : List Lexeme) : Prop := ∀ l ∈ ks.head?, l.token.extends rank = false

section
variable {rank k : Nat} {t : Token} {ks ks' : List Lexeme}

theorem Starts.ends (h : Starts t ks ks') (ht : t.extends rank = false) : StopsAt rank ks := by
  obtain ⟨l, rfl, rfl⟩ := h
  simpa [StopsAt] using ht

theorem StopsAt.mono (h : StopsAt rank ks) (hk : rank ≤ k) : StopsAt k ks := by
  intro l hl
  have hr := h l hl
  cases htoken : l.token <;> simp_all [Token.extends]
  next s =>
    obtain ⟨⟨⟨hdot, hstep⟩, hbinary⟩, hassign⟩ := hr
    refine ⟨?_, fun hzero => hassign (by omega)⟩
    cases hop : s.binary? with
    | none => rfl
    | some op =>
      simp only [hop, Option.any_some, decide_eq_false_iff_not] at hbinary ⊢
      omega

theorem StopsAt.symbol? {s : Symbol} (h : StopsAt rank ks) (hs : symbol? ks = some (s, ks')) :
    (Token.symbol s).extends rank = false := by
  unfold Parse.symbol? at hs
  split at hs
  · next l _ =>
    split at hs
    · next heq =>
      simp only [Option.some.injEq, Prod.mk.injEq] at hs
      obtain ⟨rfl, rfl⟩ := hs
      rw [← heq]
      exact h l (by simp)
    · simp at hs
  · simp at hs

theorem StopsAt.after?_eq_none {d : Delimiter} (h : StopsAt rank ks)
    (hd : d = .openBracket ∨ d = .openParen) : after? d ks = none := by
  unfold Parse.after?
  split
  · next l _ =>
    have hl := h l (by simp)
    split
    · next heq =>
      simp only [heq, Token.extends] at hl
      grind
    · rfl
  · rfl

theorem StopsAt.afterSymbol?_dot (h : StopsAt rank ks) : afterSymbol? .dot ks = none := by
  unfold Parse.afterSymbol?
  split
  · next t rest heq =>
    have := h.symbol? heq
    simp only [Token.extends] at this
    grind
  · rfl

theorem StopsAt.stepAt?_eq_none (h : StopsAt rank ks) : stepAt? ks = none := by
  cases hs : Parse.symbol? ks with
  | none => simp [Parse.stepAt?, hs]
  | some p =>
    have := h.symbol? hs
    simp_all [Parse.stepAt?, Token.extends]

theorem StopsAt.binaryAt?_eq_none (h : StopsAt rank ks) (hk : rank ≤ k + 1) :
    binaryAt? k ks = none := by
  cases hs : Parse.symbol? ks with
  | none => simp [Parse.binaryAt?, hs]
  | some p =>
    have := h.symbol? hs
    cases hop : p.1.binary? with
    | none => simp [Parse.binaryAt?, hs, hop]
    | some op =>
      have hlevel : ¬ op.level = k := by
        simp [Token.extends, hop] at this
        omega
      simp [Parse.binaryAt?, hs, hop, hlevel]

theorem StopsAt.assignAt?_eq_none (h : StopsAt 0 ks) : assignAt? ks = none := by
  cases hs : Parse.symbol? ks with
  | none => simp [Parse.assignAt?, hs]
  | some p =>
    have := h.symbol? hs
    simp_all [Parse.assignAt?, Token.extends]

end

end PrimScript
