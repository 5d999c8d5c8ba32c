import PrimScript.Syntax.Parse.Expr

/-! Parsers of expressions get on, and end.  Whatever is read begins with the first lexeme, so that fewer of them
are left; and from one lexeme to the next there is only so far to go down, so that the steps allowed to a parser
suffice, and what it comes to does not depend on them. -/

namespace PrimScript.Parse

structure Leaves (ts rest : List Lexeme) : Prop where
  suffix : rest.IsSuffix ts
  lt : rest.length < ts.length

section Leaves

variable {ts rest after : List Lexeme} {l : Lexeme}

theorem leaves_cons (l : Lexeme) (rest : List Lexeme) : Leaves (l :: rest) rest :=
  ⟨List.suffix_cons l rest, Nat.lt_succ_self _⟩

theorem Leaves.trans_suffix (h : Leaves ts rest) (hrest : after.IsSuffix rest) : Leaves ts after :=
  ⟨hrest.trans h.suffix, Nat.lt_of_le_of_lt hrest.length_le h.lt⟩

theorem Leaves.trans (h : Leaves ts rest) (hrest : Leaves rest after) : Leaves ts after :=
  h.trans_suffix hrest.suffix

theorem Leaves.of_suffix (h : rest.IsSuffix ts) (hrest : Leaves rest after) : Leaves ts after :=
  ⟨hrest.suffix.trans h, Nat.lt_of_lt_of_le hrest.lt h.length_le⟩

theorem leaves_of_after? {d : Delimiter} (h : after? d ts = some rest) : Leaves ts rest := by
  unfold after? at h
  split at h
  · split at h
    · split at h
      · cases h
        exact leaves_cons _ _
      · cases h
    · cases h
  · cases h

theorem leaves_of_type? {t : ValueType} (h : type? ts = some (t, rest)) : Leaves ts rest := by
  unfold type? at h
  split at h
  · split at h
    · cases h
      exact leaves_cons _ _
    · cases h
  · cases h

theorem leaves_of_symbol? {s : Symbol} (h : symbol? ts = some (s, rest)) : Leaves ts rest := by
  unfold symbol? at h
  split at h
  · split at h
    · cases h
      exact leaves_cons _ _
    · cases h
  · cases h

theorem leaves_of_afterSymbol? {s : Symbol} (h : afterSymbol? s ts = some rest) : Leaves ts rest := by
  unfold afterSymbol? at h
  split at h
  · next hs =>
    split at h
    · cases h
      exact leaves_of_symbol? hs
    · cases h
  · cases h

theorem leaves_of_bind_symbol? {α : Type} {k : Symbol × List Lexeme → Option (α × List Lexeme)} {a : α}
    (h : (symbol? ts).bind k = some (a, rest)) (hk : ∀ s mid, k (s, mid) = some (a, rest) → mid = rest) :
    Leaves ts rest := by
  obtain ⟨⟨s, mid⟩, hs, ha⟩ := Option.bind_eq_some_iff.1 h
  exact hk s mid ha ▸ leaves_of_symbol? hs

theorem leaves_of_binaryAt? {level : Nat} {op : BinaryOp} (h : binaryAt? level ts = some (op, rest)) :
    Leaves ts rest := leaves_of_bind_symbol? h fun s mid hk => by
  obtain ⟨op', -, hop⟩ := Option.bind_eq_some_iff.1 hk
  split at hop
  · cases hop
    rfl
  · cases hop

theorem leaves_of_sign {α : Type} {f : Symbol → Option α} {a : α}
    (h : ((symbol? ts).bind fun r => (f r.1).bind fun a => some (a, r.2)) = some (a, rest)) : Leaves ts rest :=
  leaves_of_bind_symbol? h fun s mid hk => by
    obtain ⟨a', -, ha⟩ := Option.bind_eq_some_iff.1 hk
    cases ha
    rfl

theorem leaves_of_assignAt? {op : AssignOp} (h : assignAt? ts = some (op, rest)) : Leaves ts rest :=
  leaves_of_sign h

theorem leaves_of_unaryAt? {op : UnaryOp} (h : unaryAt? ts = some (op, rest)) : Leaves ts rest :=
  leaves_of_sign h

theorem leaves_of_stepAt? {op : StepOp} (h : stepAt? ts = some (op, rest)) : Leaves ts rest :=
  leaves_of_sign h

theorem leaves_of_castAt? {t : ValueType} (h : castAt? ts = some (t, rest)) : Leaves ts rest := by
  obtain ⟨opened, hopen, h⟩ := Option.bind_eq_some_iff.1 h
  obtain ⟨⟨t', named⟩, htype, h⟩ := Option.bind_eq_some_iff.1 h
  obtain ⟨closed, hclose, h⟩ := Option.bind_eq_some_iff.1 h
  cases h
  exact ((leaves_of_after? hopen).trans (leaves_of_type? htype)).trans (leaves_of_after? hclose)

end Leaves

/-- With `n` steps or more a parser gives what satisfies `P`, or finds a fault, always the same. -/
def Ends {α : Type} (n : Nat) (parser : Nat → Parse α) (P : α → Prop) : Prop :=
  ∃ r, (∀ fuel, n ≤ fuel → parser fuel = r) ∧
    match r with
    | .ok a => P a
    | .error e => e.fault ≠ .nesting

namespace Ends

variable {α β : Type} {m n : Nat} {p : Nat → Parse α} {k : Nat → α → Parse β} {P P' : α → Prop} {Q : β → Prop}

theorem mono (h : Ends m p P) (hmn : m ≤ n) : Ends n p P := by
  obtain ⟨r, hr, hP⟩ := h
  exact ⟨r, fun fuel hn => hr fuel (Nat.le_trans hmn hn), hP⟩

theorem imp (h : Ends n p P) (hP : ∀ a, P a → P' a) : Ends n p P' := by
  obtain ⟨r, hr, hrP⟩ := h
  refine ⟨r, hr, ?_⟩
  cases r with
  | ok a => exact hP a hrP
  | error e => exact hrP

theorem ok {a : α} (h : P a) : Ends n (fun _ => .ok a) P := ⟨_, fun _ _ => rfl, h⟩

theorem error {e : SyntaxError} (h : e.fault ≠ .nesting) : Ends n (fun _ => .error e) P := ⟨_, fun _ _ => rfl, h⟩

theorem bind (hp : Ends n p P) (hk : ∀ a, P a → Ends n (fun fuel => k fuel a) Q) :
    Ends n (fun fuel => p fuel >>= k fuel) Q := by
  obtain ⟨r, hr, hP⟩ := hp
  cases r with
  | ok a =>
    obtain ⟨r', hr', hQ⟩ := hk a hP
    exact ⟨r', fun fuel hn => (congrArg (· >>= k fuel) (hr fuel hn)).trans (hr' fuel hn), hQ⟩
  | error e => exact ⟨.error e, fun fuel hn => congrArg (· >>= k fuel) (hr fuel hn), hP⟩

theorem read {p : Nat → Parse (Parsed α)} {k : Nat → Parsed α → Parse β} {P : Parsed α → Prop} (hp : Ends n p P)
    (hk : ∀ a rest, P (a, rest) → Ends n (fun fuel => k fuel (a, rest)) Q) :
    Ends n (fun fuel => p fuel >>= k fuel) Q :=
  hp.bind fun r => hk r.1 r.2

theorem succ (h : Ends n (fun fuel => p (fuel + 1)) P) : Ends (n + 1) p P := by
  obtain ⟨r, hr, hP⟩ := h
  refine ⟨r, fun fuel hn => ?_, hP⟩
  obtain ⟨fuel, rfl⟩ := Nat.exists_eq_add_of_le' (Nat.le_of_add_left_le hn)
  exact hr fuel (Nat.le_of_add_le_add_right hn)

theorem of_parse {q : Parse α} (hok : ∀ a, q = .ok a → P a) (herror : ∀ e, q = .error e → e.fault ≠ .nesting) :
    Ends n (fun _ => q) P := by
  cases q with
  | ok a => exact .ok (hok a rfl)
  | error e => exact .error (herror e rfl)

end Ends

section Lexemes

variable {n : Nat} {ts : List Lexeme}

theorem ends_delimiter (d : Delimiter) : Ends n (fun _ => delimiter d ts) (Leaves ts) := by
  unfold delimiter
  cases h : after? d ts with
  | some rest => exact .ok (leaves_of_after? h)
  | none => exact .error (by simp)

theorem ends_identifier : Ends n (fun _ => identifier ts) (Leaves ts ·.2) := by
  cases ts with
  | nil => exact .error (by simp)
  | cons l rest =>
    simp only [identifier]
    cases h : l.token with
    | ident name => exact .ok (leaves_cons l rest)
    | _ => exact .error (by simp)

theorem ends_target {e : Expr} : Ends n (fun _ => target ts e) fun _ => True := by
  refine .of_parse (fun _ _ => trivial) fun err h => ?_
  unfold target at h
  split at h <;> cases h <;> simp

theorem ends_vectorOf (es : List Expr) : Ends n (fun _ => vectorOf es ts) (·.2 = ts) := by
  unfold vectorOf
  split
  · exact .ok rfl
  · exact .ok rfl
  · exact .error (by simp)

end Lexemes

structure ExprsEnd (n : Nat) (ts : List Lexeme) : Prop where
  primary : Ends n (primary · ts) (Leaves ts ·.2)
  suffixes : ∀ e, Ends n (suffixes · e ts) (·.2.IsSuffix ts)
  postfixed : Ends n (postfixed · ts) (Leaves ts ·.2)
  unary : Ends n (unary · ts) (Leaves ts ·.2)
  chain : ∀ level e, Ends n (chain · level e ts) (·.2.IsSuffix ts)
  binary : ∀ level, Ends n (binary · level ts) (Leaves ts ·.2)
  expression : Ends n (expression · ts) (Leaves ts ·.2)
  someItems : Ends n (someItems · ts) (Leaves ts ·.2)
  items : ∀ stop, Ends n (items · stop ts) (·.2.IsSuffix ts)
  components : ∀ more, Ends n (components · more ts) (Leaves ts ·.2)

theorem ExprsEnd.mono {m n : Nat} {ts : List Lexeme} (h : ExprsEnd m ts) (hmn : m ≤ n) : ExprsEnd n ts where
  primary := h.primary.mono hmn
  suffixes e := (h.suffixes e).mono hmn
  postfixed := h.postfixed.mono hmn
  unary := h.unary.mono hmn
  chain level e := (h.chain level e).mono hmn
  binary level := (h.binary level).mono hmn
  expression := h.expression.mono hmn
  someItems := h.someItems.mono hmn
  items stop := (h.items stop).mono hmn
  components more := (h.components more).mono hmn

section Exprs

/-! Where the parsers end with `n` steps on any lexemes left of `ts`, they end with some more on `ts`: with one more
when they begin with a lexeme, and otherwise with one more than the parser they begin with. -/

variable {n : Nat} {ts : List Lexeme} (behind : ∀ rest, Leaves ts rest → ExprsEnd n rest)
include behind

theorem ends_primary : Ends (n + 1) (primary · ts) (Leaves ts ·.2) := by
  cases ts with
  | nil => exact .succ (.error (by simp))
  | cons l rest =>
    have hrest := leaves_cons l rest
    refine .succ ?_
    simp only [primary]
    cases ht : l.token with
    | integer n => exact .ok hrest
    | float x => exact .ok hrest
    | string s => exact .ok hrest
    | ident name =>
      dsimp only
      cases hopen : after? .openParen rest with
      | none => exact .ok hrest
      | some opened =>
        have hopened := hrest.trans (leaves_of_after? hopen)
        refine .read ((behind opened hopened).items _) fun args closing hargs => ?_
        refine .bind (ends_delimiter _) fun closed hclosed => ?_
        exact .ok (hopened.trans (.of_suffix hargs hclosed))
    | delimiter d =>
      cases d with
      | openParen =>
        refine .read (behind rest hrest).expression fun e closing he => ?_
        refine .bind (ends_delimiter _) fun closed hclosed => ?_
        exact .ok (hrest.trans (he.trans hclosed))
      | openBracket =>
        refine .read ((behind rest hrest).items _) fun es closing hes => ?_
        refine .bind (ends_delimiter _) fun closed hclosed => ?_
        exact .ok (hrest.trans (.of_suffix hes hclosed))
      | _ => exact .error (by simp)
    | symbol s =>
      cases s with
      | less =>
        refine .read ((behind rest hrest).components 3) fun parts closed hparts => ?_
        exact (ends_vectorOf parts).imp fun r hr => hr ▸ hrest.trans hparts
      | _ => exact .error (by simp)
    | _ => exact .error (by simp)

theorem ends_suffixes (e : Expr) : Ends (n + 1) (suffixes · e ts) (·.2.IsSuffix ts) := by
  refine .succ ?_
  simp only [suffixes]
  cases hdot : afterSymbol? .dot ts with
  | some rest =>
    have hrest := leaves_of_afterSymbol? hdot
    refine .read ends_identifier fun name after hafter => ?_
    dsimp only
    cases Axis.ofName? name with
    | none => exact .error (by simp)
    | some axis =>
      have hafter := hrest.trans hafter
      exact ((behind after hafter).suffixes _).imp fun r hr => hr.trans hafter.suffix
  | none =>
    dsimp only
    cases hopen : after? .openBracket ts with
    | some opened =>
      have hopened := leaves_of_after? hopen
      refine .read (behind opened hopened).expression fun first rest hfirst => ?_
      dsimp only
      cases hcolon : after? .colon rest with
      | some rest =>
        have hrest := hopened.trans (hfirst.trans (leaves_of_after? hcolon))
        refine .read (behind rest hrest).expression fun last closing hlast => ?_
        refine .bind (ends_delimiter _) fun closed hclosed => ?_
        have hclosed := hrest.trans (hlast.trans hclosed)
        exact ((behind closed hclosed).suffixes _).imp fun r hr => hr.trans hclosed.suffix
      | none =>
        refine .bind (ends_delimiter _) fun closed hclosed => ?_
        have hclosed := hopened.trans (hfirst.trans hclosed)
        exact ((behind closed hclosed).suffixes _).imp fun r hr => hr.trans hclosed.suffix
    | none =>
      dsimp only
      cases hstep : stepAt? ts with
      | none => exact .ok List.suffix_rfl
      | some r =>
        obtain ⟨op, rest⟩ := r
        refine .bind ends_target fun place _ => ?_
        exact .ok (leaves_of_stepAt? hstep).suffix

theorem ends_postfixed : Ends (n + 2) (postfixed · ts) (Leaves ts ·.2) := by
  refine .succ ?_
  simp only [postfixed]
  refine .read (ends_primary behind) fun e rest hrest => ?_
  exact (((behind rest hrest).suffixes e).mono (Nat.le_succ n)).imp fun r hr => hrest.trans_suffix hr

theorem ends_unary : Ends (n + 3) (unary · ts) (Leaves ts ·.2) := by
  have hle : n ≤ n + 2 := Nat.le_add_right n 2
  refine .succ ?_
  simp only [unary]
  cases hunary : unaryAt? ts with
  | some r =>
    obtain ⟨op, rest⟩ := r
    have hrest := leaves_of_unaryAt? hunary
    refine .read ((behind rest hrest).unary.mono hle) fun operand after hafter => ?_
    exact .ok (hrest.trans hafter)
  | none =>
    dsimp only
    cases hstep : stepAt? ts with
    | some r =>
      obtain ⟨op, rest⟩ := r
      have hrest := leaves_of_stepAt? hstep
      refine .read ((behind rest hrest).postfixed.mono hle) fun operand after hafter => ?_
      refine .bind ends_target fun place _ => ?_
      exact .ok (hrest.trans hafter)
    | none =>
      dsimp only
      cases hcast : castAt? ts with
      | some r =>
        obtain ⟨t, rest⟩ := r
        have hrest := leaves_of_castAt? hcast
        refine .read ((behind rest hrest).unary.mono hle) fun operand after hafter => ?_
        exact .ok (hrest.trans hafter)
      | none => exact ends_postfixed behind

theorem ends_chain (level : Nat) (e : Expr) : Ends (n + 1) (chain · level e ts) (·.2.IsSuffix ts) := by
  refine .succ ?_
  simp only [chain]
  cases hbinary : binaryAt? level ts with
  | none => exact .ok List.suffix_rfl
  | some r =>
    obtain ⟨op, rest⟩ := r
    have hrest := leaves_of_binaryAt? hbinary
    refine .read ((behind rest hrest).binary (level + 1)) fun right after hafter => ?_
    have hafter := hrest.trans hafter
    exact ((behind after hafter).chain level _).imp fun r hr => hr.trans hafter.suffix

theorem ends_binary (k level : Nat) (hk : 10 - level = k) :
    Ends (n + 4 + k) (binary · level ts) (Leaves ts ·.2) := by
  induction k generalizing level with
  | zero =>
    have hlevel : ¬ level < 10 := by omega
    refine .succ ?_
    simp only [binary, if_neg hlevel]
    exact ends_unary behind
  | succ k ih =>
    have hlevel : level < 10 := by omega
    refine .succ (n := n + 4 + k) ?_
    simp only [binary, if_pos hlevel]
    refine .read (ih (level + 1) (by omega)) fun left rest hrest => ?_
    exact (((behind rest hrest).chain level left).mono (by omega)).imp fun r hr => hrest.trans_suffix hr

theorem ends_expression : Ends (n + 15) (expression · ts) (Leaves ts ·.2) := by
  refine .succ ?_
  simp only [expression]
  refine .read (ends_binary behind 10 0 rfl) fun left rest hrest => ?_
  dsimp only
  cases hassign : assignAt? rest with
  | none => exact .ok hrest
  | some r =>
    obtain ⟨op, rest⟩ := r
    have hrest := hrest.trans (leaves_of_assignAt? hassign)
    refine .bind ends_target fun place _ => ?_
    refine .read ((behind rest hrest).expression.mono (Nat.le_add_right n 14)) fun value after hafter => ?_
    exact .ok (hrest.trans hafter)

theorem ends_someItems : Ends (n + 16) (someItems · ts) (Leaves ts ·.2) := by
  refine .succ ?_
  simp only [someItems]
  refine .read (ends_expression behind) fun e rest hrest => ?_
  dsimp only
  cases hcomma : after? .comma rest with
  | none => exact .ok hrest
  | some rest =>
    have hrest := hrest.trans (leaves_of_after? hcomma)
    refine .read ((behind rest hrest).someItems.mono (Nat.le_add_right n 15)) fun es after hafter => ?_
    exact .ok (hrest.trans hafter)

theorem ends_items (stop : Delimiter) : Ends (n + 17) (items · stop ts) (·.2.IsSuffix ts) := by
  refine .succ ?_
  simp only [items]
  cases after? stop ts with
  | some _ => exact .ok List.suffix_rfl
  | none => exact (ends_someItems behind).imp fun r hr => hr.suffix

theorem ends_components (more : Nat) : Ends (n + 8) (components · more ts) (Leaves ts ·.2) := by
  refine .succ ?_
  simp only [components]
  refine .read (ends_binary behind 3 componentLevel rfl) fun e rest hrest => ?_
  cases more <;> cases hcomma : after? .comma rest
  case succ.some more rest =>
    have hrest := hrest.trans (leaves_of_after? hcomma)
    refine .read (((behind rest hrest).components more).mono (Nat.le_add_right n 7)) fun es after hafter => ?_
    exact .ok (hrest.trans hafter)
  -- no more may follow, or none does
  all_goals
    dsimp only
    cases hclose : afterSymbol? .greater rest with
    | some closed => exact .ok (hrest.trans (leaves_of_afterSymbol? hclose))
    | none => exact .error (by simp)

theorem exprsEnd_of_behind : ExprsEnd (n + 17) ts where
  primary := (ends_primary behind).mono (by omega)
  suffixes e := (ends_suffixes behind e).mono (by omega)
  postfixed := (ends_postfixed behind).mono (by omega)
  unary := (ends_unary behind).mono (by omega)
  chain level e := (ends_chain behind level e).mono (by omega)
  binary level := (ends_binary behind _ level rfl).mono (by omega)
  expression := (ends_expression behind).mono (by omega)
  someItems := (ends_someItems behind).mono (by omega)
  items := ends_items behind
  components more := (ends_components behind more).mono (by omega)

end Exprs

theorem exprsEnd (ts : List Lexeme) : ExprsEnd (17 * (ts.length + 1)) ts := by
  induction h : ts.length using Nat.strongRecOn generalizing ts with
  | ind k ih =>
    refine exprsEnd_of_behind (n := 17 * k) fun rest hrest => ?_
    have hlt := hrest.lt
    exact (ih rest.length (h ▸ hlt) rest rfl).mono (by omega)

end PrimScript.Parse
