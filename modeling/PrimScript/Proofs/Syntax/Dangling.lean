import PrimScript.Proofs.Syntax.Validity
import PrimScript.Syntax.Parse.Stmt

/-! To which `if` an `else` belongs.  A statement that ends in an `if` without an `else` is not read
before an `else`: that would have been read as a part of it. -/

namespace PrimScript

namespace Stmt

/-- Does the statement end in an `if` that an `else` after it would belong to? -/
def endsOpen : Stmt → Bool
  | .ite _ _ none => true
  | .ite _ _ (some elseBranch) => elseBranch.endsOpen
  | .while _ body => body.endsOpen
  | .for _ _ _ body => body.endsOpen
  | _ => false

inductive Within (s : Stmt) : Stmt → Prop
  | self : Within s s
  | thenBranch {c : Expr} {t : Stmt} {e : Option Stmt} (h : Within s t) : Within s (.ite c t e)
  | elseBranch {c : Expr} {t e : Stmt} (h : Within s e) : Within s (.ite c t (some e))
  | whileBody {c : Expr} {body : Stmt} (h : Within s body) : Within s (.while c body)
  | doBody {c : Expr} {body : Stmt} (h : Within s body) : Within s (.doWhile body c)
  | forBody {init step : List Expr} {c : Option Expr} {body : Stmt} (h : Within s body) :
      Within s (.for init c step body)
  | block {b : Stmt} {body : List Stmt} (hb : b ∈ body) (h : Within s b) : Within s (.block body)

/-- Every `else` in the statement belongs to the nearest `if` before it that is still open. -/
def Attached (s : Stmt) : Prop :=
  ∀ c t e, Within (.ite c t (some e)) s → t.endsOpen = false

variable {c : Expr} {s t e : Stmt}

theorem attached_if (h : t.Attached) : (Stmt.ite c t none).Attached := by
  intro c' t' e' hw
  cases hw with
  | thenBranch hw => exact h c' t' e' hw

theorem attached_ifElse (hopen : t.endsOpen = false) (ht : t.Attached) (he : e.Attached) :
    (Stmt.ite c t (some e)).Attached := by
  intro c' t' e' hw
  cases hw with
  | self => exact hopen
  | thenBranch hw => exact ht c' t' e' hw
  | elseBranch hw => exact he c' t' e' hw

theorem attached_while (h : s.Attached) : (Stmt.while c s).Attached := by
  intro c' t' e' hw
  cases hw with
  | whileBody hw => exact h c' t' e' hw

theorem attached_doWhile (h : s.Attached) : (Stmt.doWhile s c).Attached := by
  intro c' t' e' hw
  cases hw with
  | doBody hw => exact h c' t' e' hw

theorem attached_for {init step : List Expr} {c : Option Expr} (h : s.Attached) :
    (Stmt.for init c step s).Attached := by
  intro c' t' e' hw
  cases hw with
  | forBody hw => exact h c' t' e' hw

theorem attached_block {body : List Stmt} (h : ∀ s ∈ body, s.Attached) :
    (Stmt.block body).Attached := by
  intro c' t' e' hw
  cases hw with
  | block hb hw => exact h _ hb c' t' e' hw

end Stmt

namespace Parse

def Gives {α : Type} (p : Parse α) (P : α → Prop) : Prop := ∀ a, p = .ok a → P a

namespace Gives

variable {α β : Type} {p : Parse α} {k : α → Parse β} {P : α → Prop} {Q : β → Prop} {a : α}

theorem ok (h : P a) : Gives (.ok a) P := by
  rintro _ ⟨⟩
  exact h

theorem error {e : SyntaxError} : Gives (.error e) P := nofun

theorem bind (hp : Gives p P) (hk : ∀ a, P a → Gives (k a) Q) : Gives (p >>= k) Q := by
  intro b hb
  obtain ⟨a, ha, hb⟩ := Except.bind_eq_ok_iff.1 hb
  exact hk a (hp a ha) b hb

theorem after (hk : ∀ a, Gives (k a) Q) : Gives (p >>= k) Q :=
  bind (P := fun _ => True) (fun _ _ => trivial) fun a _ => hk a

end Gives

variable {k : Keyword} {ts rest : List Lexeme}

theorem exists_of_afterKeyword? (h : afterKeyword? k ts = some rest) :
    ∃ l, ts = l :: rest ∧ l.token = .keyword k := by
  unfold afterKeyword? at h
  split at h
  · split at h
    · split at h
      · next ht hk =>
        cases h
        exact ⟨_, rfl, hk ▸ ht⟩
      · cases h
    · cases h
  · cases h

theorem ne_of_afterKeyword? (h : afterKeyword? k ts = none) :
    ∀ l ∈ ts.head?, l.token ≠ .keyword k := by
  intro l hl ht
  obtain ⟨rest, rfl⟩ := List.head?_eq_some_iff.1 hl
  simp [afterKeyword?, ht] at h

/-- The statement is a whole one before `rest`: no `else` is there that belongs to it. -/
structure Whole (s : Stmt) (rest : List Lexeme) : Prop where
  attached : s.Attached
  ended : s.endsOpen → ∀ l ∈ rest.head?, l.token ≠ .keyword .else

theorem Whole.endsOpen_eq_false {s : Stmt} (h : Whole s ts)
    (he : afterKeyword? .else ts = some rest) : s.endsOpen = false := by
  obtain ⟨l, rfl, hl⟩ := exists_of_afterKeyword? he
  rw [← Bool.not_eq_true]
  exact fun ho => h.ended ho l rfl hl

theorem whole_ofExpr (e : Expr) (rest : List Lexeme) : Whole (ofExpr e) rest := by
  cases e <;> exact ⟨nofun, nofun⟩

mutual

theorem statement_whole : (fuel : Nat) → (ts : List Lexeme) →
    Gives (statement fuel ts) fun r => Whole r.1 r.2
  | 0, _ => .error
  | _ + 1, [] => .error
  | fuel + 1, l :: ts => by
    rw [statement]
    split
    case h_1 => exact .ok ⟨nofun, nofun⟩
    case h_2 =>
      exact .bind (statements_attached fuel ts) fun r hr =>
        .ok ⟨Stmt.attached_block hr, nofun⟩
    case h_3 => exact .after fun _ => .after fun _ => .after fun _ => .ok ⟨nofun, nofun⟩
    case h_4 =>
      refine .after fun r => .bind (statement_whole fuel r.2) fun r ht => ?_
      dsimp only
      split
      · next he =>
        refine .bind (statement_whole fuel _) fun r' he' => .ok ⟨?_, he'.ended⟩
        exact Stmt.attached_ifElse (ht.endsOpen_eq_false he) ht.attached he'.attached
      · next he => exact .ok ⟨Stmt.attached_if ht.attached, fun _ => ne_of_afterKeyword? he⟩
    case h_5 =>
      exact .after fun r => .bind (statement_whole fuel r.2) fun r hr =>
        .ok ⟨Stmt.attached_while hr.attached, hr.ended⟩
    case h_6 =>
      refine .bind (statement_whole fuel ts) fun r hr => ?_
      dsimp only
      split
      · exact .error
      · exact .after fun _ => .after fun _ => .ok ⟨Stmt.attached_doWhile hr.attached, nofun⟩
    case h_7 =>
      exact .after fun r => .bind (statement_whole fuel r.2) fun r hr =>
        .ok ⟨Stmt.attached_for hr.attached, hr.ended⟩
    case h_8 =>
      split
      · exact .ok ⟨nofun, nofun⟩
      · exact .after fun _ => .after fun _ => .ok ⟨nofun, nofun⟩
    case h_9 => exact .after fun _ => .ok ⟨nofun, nofun⟩
    case h_10 => exact .after fun _ => .ok ⟨nofun, nofun⟩
    case h_11 => exact .after fun _ => .ok ⟨nofun, nofun⟩
    case h_12 => exact .after fun _ => .ok ⟨nofun, nofun⟩
    case h_13 => exact .after fun _ => .ok ⟨nofun, nofun⟩
    case h_14 => exact .after fun _ => .after fun _ => .ok (whole_ofExpr _ _)

theorem statements_attached : (fuel : Nat) → (ts : List Lexeme) →
    Gives (statements fuel ts) fun r => ∀ s ∈ r.1, s.Attached
  | 0, _ => .error
  | fuel + 1, ts => by
    rw [statements]
    split
    · exact .ok nofun
    · split
      · exact .error
      · exact .bind (statement_whole fuel ts) fun r hr =>
          .bind (statements_attached fuel r.2) fun _ hrs =>
            .ok (List.forall_mem_cons.2 ⟨hr.attached, hrs⟩)

end

end Parse

open Parse (statement)

variable {fuel : Nat} {ts rest : List Lexeme} {s : Stmt}

/-- An `else` belongs to the nearest `if` before it that is open.  In a statement that was read, what
is between an `if` and its `else` does not end in an open `if`; and when the statement itself does,
no `else` comes after it. -/
theorem else_belongs_to_nearest (h : statement fuel ts = .ok (s, rest)) :
    (∀ c t e, Stmt.Within (.ite c t (some e)) s → t.endsOpen = false) ∧
      (s.endsOpen → ∀ l ∈ rest.head?, l.token ≠ .keyword .else) :=
  have hs := Parse.statement_whole fuel ts (s, rest) h
  ⟨hs.attached, hs.ended⟩

def danglingTokens : List Token :=
  [.keyword .if, .delimiter .openParen, .ident "a", .delimiter .closeParen,
    .keyword .while, .delimiter .openParen, .ident "b", .delimiter .closeParen,
    .keyword .if, .delimiter .openParen, .ident "c", .delimiter .closeParen, .delimiter .semicolon,
    .keyword .else,
    .keyword .if, .delimiter .openParen, .ident "d", .delimiter .closeParen, .delimiter .semicolon]

def Lexeme.unplaced (t : Token) : Lexeme := ⟨t, .start, 0⟩

def dangling : Stmt :=
  .ite (.ident "a")
    (.while (.ident "b")
      (.ite (.ident "c") .empty (some (.ite (.ident "d") .empty none)))) none

theorem else_belongs_to_nearest_dangling :
    Stmt.parse (danglingTokens.map .unplaced ++ [.unplaced (.delimiter .closeBrace)]) =
        .ok (dangling, [.unplaced (.delimiter .closeBrace)]) ∧
      (∀ c t e, Stmt.Within (.ite c t (some e)) dangling → t.endsOpen = false) ∧
        dangling.endsOpen ∧ Token.delimiter .closeBrace ≠ .keyword .else := by
  have h : Stmt.parse (danglingTokens.map .unplaced ++ [.unplaced (.delimiter .closeBrace)]) =
      .ok (dangling, [.unplaced (.delimiter .closeBrace)]) := rfl
  obtain ⟨hthen, hend⟩ := else_belongs_to_nearest h
  exact ⟨h, hthen, rfl, hend rfl _ rfl⟩

end PrimScript
