import Mathlib.Data.Nat.Init
import PrimScript.Proofs.Syntax.Reading
import PrimScript.Proofs.Syntax.Spelling

/-! Reading back what was written.  An expression in a place of some rank is read back by the parser
of that place, and the parser then goes on as it would with the expression read already; by
induction on expressions all of them are. -/

namespace PrimScript

open Parse

/-- The tokens are read as the expression by the parsers of the ranks up to the given one.  Where
more may follow, the parser gives what it gives with the expression read and the lexemes `ks`
left. -/
structure Legible (rank : Nat) (ts : List Token) (e : Expr) : Prop where
  begins : Begins ts
  opens : 12 ≤ rank → Opens ts
  whole : ∀ {ls ks}, Spells ts ls ks → StopsAt 0 ks →
    Settles (32 * ts.length + 40) (fun fuel => expression fuel ls) (e, ks)
  operand : ∀ {l ls ks n r}, l < 10 → l < rank → Spells ts ls ks → StopsAt (l + 2) ks →
    Settles n (fun fuel => chain fuel l e ks) r →
    Settles (n + 32 * ts.length + 28 - 2 * l) (fun fuel => binary fuel l ls) r
  tight : 11 ≤ rank → ∀ {ls ks}, Spells ts ls ks → StopsAt 11 ks →
    Settles (32 * ts.length + 6) (fun fuel => unary fuel ls) (e, ks)
  base : 13 ≤ rank → ∀ {ls ks n r}, Spells ts ls ks → after? .openParen ks = none →
    Settles n (fun fuel => suffixes fuel e ks) r →
    Settles (n + 32 * ts.length) (fun fuel => postfixed fuel ls) r

theorem target_expr (t : Target) (ls : List Lexeme) : target ls t.expr = .ok t := by
  cases t <;> rfl

namespace Legible

section
variable {rank own l : Nat} {ts : List Token} {e : Expr} {ls ks : List Lexeme}

theorem mono (h : Legible own ts e) (hr : rank ≤ own) : Legible rank ts e where
  begins := h.begins
  opens hn := h.opens (by omega)
  whole := h.whole
  operand hl hn := h.operand hl (by omega)
  tight hn := h.tight (by omega)
  base hn := h.base (by omega)

theorem alone (h : Legible rank ts e) (hl : l ≤ 10) (hrank : l < rank) (written : Spells ts ls ks)
    (ends : StopsAt (l + 1) ks) :
    Settles (32 * ts.length + 29 - 2 * l) (fun fuel => binary fuel l ls) (e, ks) := by
  obtain rfl | hl := Nat.eq_or_lt_of_le hl
  · exact (binary_unary (by omega) (h.tight hrank written ends)).mono (by omega)
  · have stops : Settles 1 (fun fuel => chain fuel l e ks) (e, ks) :=
      chain_stop (ends.binaryAt?_eq_none (by omega))
    exact (h.operand hl hrank written (ends.mono (by omega)) stops).mono (by omega)

end

section
variable {ts : List Token} {e : Expr}

theorem whole_of_operand
    (operand : ∀ {ls ks n r}, Spells ts ls ks → StopsAt 2 ks →
      Settles n (fun fuel => chain fuel 0 e ks) r →
      Settles (n + 32 * ts.length + 28) (fun fuel => binary fuel 0 ls) r)
    {ls ks : List Lexeme} (written : Spells ts ls ks) (ends : StopsAt 0 ks) :
    Settles (32 * ts.length + 40) (fun fuel => expression fuel ls) (e, ks) := by
  have stops : Settles 1 (fun fuel => chain fuel 0 e ks) (e, ks) :=
    chain_stop (ends.binaryAt?_eq_none (by omega))
  have left := operand written (ends.mono (by omega)) stops
  exact (expression_binary left ends.assignAt?_eq_none).mono (by omega)

theorem operand_of_operand {k : Nat} (hk : k < 10)
    (operand : ∀ {ls ks n r}, Spells ts ls ks → StopsAt (k + 2) ks →
      Settles n (fun fuel => chain fuel k e ks) r →
      Settles (n + 32 * ts.length + 28 - 2 * k) (fun fuel => binary fuel k ls) r)
    {l : Nat} (hl : l ≤ k) :
    ∀ {ls ks n r}, Spells ts ls ks → StopsAt (l + 2) ks →
      Settles n (fun fuel => chain fuel l e ks) r →
      Settles (n + 32 * ts.length + 28 - 2 * l) (fun fuel => binary fuel l ls) r := by
  induction hl using Nat.decreasingInduction with
  | self => exact operand
  | of_succ l hl ih =>
    intro ls ks n r written ends more
    have stops : Settles 1 (fun fuel => chain fuel (l + 1) e ks) (e, ks) :=
      chain_stop (ends.binaryAt?_eq_none (by omega))
    have left := ih written (ends.mono (by omega)) stops
    exact (binary_step (by omega) left more).mono (by omega)

theorem operand_of_tight
    (tight : ∀ {ls ks}, Spells ts ls ks → StopsAt 11 ks →
      Settles (32 * ts.length + 6) (fun fuel => unary fuel ls) (e, ks))
    {l : Nat} (hl : l < 10) {ls ks : List Lexeme} {n : Nat} {r : Parsed Expr}
    (written : Spells ts ls ks) (ends : StopsAt (l + 2) ks)
    (more : Settles n (fun fuel => chain fuel l e ks) r) :
    Settles (n + 32 * ts.length + 28 - 2 * l) (fun fuel => binary fuel l ls) r := by
  refine operand_of_operand (k := 9) (by omega) ?_ (by omega) written ends more
  intro ls ks n r written ends more
  have left := binary_unary (l := 10) (by omega) (tight written ends)
  exact (binary_step (by omega) left more).mono (by omega)

theorem tight_of_base (opens : Opens ts)
    (base : ∀ {ls ks n r}, Spells ts ls ks → after? .openParen ks = none →
      Settles n (fun fuel => suffixes fuel e ks) r →
      Settles (n + 32 * ts.length) (fun fuel => postfixed fuel ls) r)
    {ls ks : List Lexeme} (written : Spells ts ls ks) (ends : StopsAt 11 ks) :
    Settles (32 * ts.length + 6) (fun fuel => unary fuel ls) (e, ks) := by
  have stops : Settles 1 (fun fuel => suffixes fuel e ks) (e, ks) :=
    suffixes_stop ends.afterSymbol?_dot (ends.after?_eq_none (.inl rfl)) ends.stepAt?_eq_none
  have first := base written (ends.after?_eq_none (.inr rfl)) stops
  exact (unary_postfixed (opens.unaryAt?_eq_none written) (opens.stepAt?_eq_none written)
    (opens.castAt?_eq_none written) first).mono (by omega)

theorem of_whole (begins : Begins ts)
    (whole : ∀ {ls ks}, Spells ts ls ks → StopsAt 0 ks →
      Settles (32 * ts.length + 40) (fun fuel => expression fuel ls) (e, ks)) :
    Legible 0 ts e where
  begins := begins
  opens hn := absurd hn (by omega)
  whole := whole
  operand _ hn := absurd hn (by omega)
  tight hn := absurd hn (by omega)
  base hn := absurd hn (by omega)

/-- A binary expression of level `k`. -/
theorem of_operand {k : Nat} (hk : k < 10) (begins : Begins ts)
    (operand : ∀ {ls ks n r}, Spells ts ls ks → StopsAt (k + 2) ks →
      Settles n (fun fuel => chain fuel k e ks) r →
      Settles (n + 32 * ts.length + 28 - 2 * k) (fun fuel => binary fuel k ls) r) :
    Legible (k + 1) ts e where
  begins := begins
  opens hn := absurd hn (by omega)
  whole := whole_of_operand (operand_of_operand hk operand (Nat.zero_le k))
  operand _ hn := operand_of_operand hk operand (by omega)
  tight hn := absurd hn (by omega)
  base hn := absurd hn (by omega)

theorem of_tight {rank : Nat} (hrank : rank < 13) (begins : Begins ts)
    (opens : 12 ≤ rank → Opens ts)
    (tight : ∀ {ls ks}, Spells ts ls ks → StopsAt 11 ks →
      Settles (32 * ts.length + 6) (fun fuel => unary fuel ls) (e, ks)) :
    Legible rank ts e where
  begins := begins
  opens := opens
  whole := whole_of_operand (operand_of_tight tight (by omega))
  operand hl _ := operand_of_tight tight hl
  tight _ := tight
  base hn := absurd hn (by omega)

theorem of_base (opens : Opens ts)
    (base : ∀ {ls ks n r}, Spells ts ls ks → after? .openParen ks = none →
      Settles n (fun fuel => suffixes fuel e ks) r →
      Settles (n + 32 * ts.length) (fun fuel => postfixed fuel ls) r) :
    Legible 13 ts e where
  begins := opens.begins
  opens _ := opens
  whole := whole_of_operand (operand_of_tight (tight_of_base opens base) (by omega))
  operand hl _ := operand_of_tight (tight_of_base opens base) hl
  tight _ := tight_of_base opens base
  base _ := base

theorem of_primary {n : Nat} (hn : n < 32 * ts.length) (opens : Opens ts)
    (first : ∀ {ls ks}, Spells ts ls ks → after? .openParen ks = none →
      Settles n (fun fuel => primary fuel ls) (e, ks)) : Legible 13 ts e :=
  of_base opens fun written no_call more =>
    (postfixed_primary (first written no_call) more).mono (by omega)

end

theorem parenthesized {rank : Nat} {ts : List Token} {e : Expr} (h : Legible rank ts e) :
    Legible 13 (parenthesized ts) e := by
  refine of_primary (n := 32 * ts.length + 41) (by simp [PrimScript.parenthesized]; omega)
    h.begins.append ?_
  intro ls ks written _
  simp only [PrimScript.parenthesized, spells_cons, spells_append, spells_nil] at written
  obtain ⟨inside, ⟨l, hl, rfl⟩, close, inner, _, closes, rfl⟩ := written
  exact primary_parenthesized hl (h.whole inner (closes.ends rfl)) closes.delimiter

theorem grouped {wanted own : Nat} {ts : List Token} {e : Expr} (h : Legible own ts e)
    (hw : wanted ≤ 13) : Legible wanted (grouped wanted own ts) e := by
  unfold PrimScript.grouped
  split
  · next hle => exact h.mono hle
  · exact h.parenthesized.mono hw

section
variable {es : List Expr} {ls ks ks' : List Lexeme}

theorem someItems {stop : Delimiter} (hs : stop = .closeParen ∨ stop = .closeBracket) {e : Expr}
    (h : ∀ x ∈ e :: es, Legible 0 x.tokens x)
    (written : Spells (commaSeparated ((e :: es).map Expr.tokens)) ls ks)
    (closes : Starts (.delimiter stop) ks ks') :
    Settles (32 * (commaSeparated ((e :: es).map Expr.tokens)).length + 41)
      (fun fuel => Parse.someItems fuel ls) (e :: es, ks) := by
  induction es generalizing e ls with
  | nil =>
    have ends : StopsAt 0 ks := closes.ends (by obtain rfl | rfl := hs <;> rfl)
    have no_comma : after? .comma ks = none :=
      closes.after?_ne (by obtain rfl | rfl := hs <;> decide)
    exact someItems_last ((h e (by simp)).whole written ends) no_comma
  | cons e' es ih =>
    simp only [List.map_cons, commaSeparated, spells_append, spells_cons] at written
    obtain ⟨mid, first, mid', comma, rest⟩ := written
    have item := (h e (by simp)).whole first (comma.ends rfl)
    have more := ih (fun x hx => h x (by simp_all)) rest
    simp only [List.map_cons, commaSeparated, List.length_append, List.length_cons] at more ⊢
    exact (someItems_more item comma.after? more).mono (by omega)

theorem items {stop : Delimiter} (hs : stop = .closeParen ∨ stop = .closeBracket)
    (h : ∀ x ∈ es, Legible 0 x.tokens x)
    (written : Spells (commaSeparated (es.map Expr.tokens)) ls ks)
    (closes : Starts (.delimiter stop) ks ks') :
    Settles (32 * (commaSeparated (es.map Expr.tokens)).length + 42)
      (fun fuel => Parse.items fuel stop ls) (es, ks) := by
  cases es with
  | nil =>
    obtain rfl : ls = ks := by simpa [commaSeparated] using written
    exact (items_none closes.after?).mono (by omega)
  | cons e es =>
    have begins : Begins (commaSeparated ((e :: es).map Expr.tokens)) := by
      cases es with
      | nil => exact (h e (by simp)).begins
      | cons e' es => exact (h e (by simp)).begins.append
    have no_stop : after? stop ls = none :=
      begins.after?_eq_none written (by obtain rfl | rfl := hs <;> decide)
    exact items_some no_stop (someItems hs h written closes)

theorem components {more : Nat} {e : Expr} (hmore : es.length ≤ more)
    (h : ∀ x ∈ e :: es, Legible 8 (x.render 8) x)
    (written : Spells (commaSeparated ((e :: es).map (·.render 8))) ls ks)
    (closes : Starts (.symbol .greater) ks ks') :
    Settles (32 * (commaSeparated ((e :: es).map (·.render 8))).length + 40)
      (fun fuel => Parse.components fuel more ls) (e :: es, ks') := by
  induction es generalizing e ls more with
  | nil =>
    have part := (h e (by simp)).alone (l := componentLevel) (by decide) (by decide) written
      (closes.ends rfl)
    exact (components_last part closes.after?_symbol closes.afterSymbol?).mono
      (by simp [commaSeparated]; omega)
  | cons e' es ih =>
    obtain ⟨more, rfl⟩ : ∃ k, more = k + 1 := ⟨more - 1, by simp at hmore; omega⟩
    simp only [List.map_cons, commaSeparated, spells_append, spells_cons] at written
    obtain ⟨mid, first, mid', comma, rest⟩ := written
    have part := (h e (by simp)).alone (l := componentLevel) (by decide) (by decide) first
      (comma.ends rfl)
    have fewer : es.length ≤ more := by simpa using hmore
    have others := ih fewer (fun x hx => h x (by simp_all)) rest
    simp only [List.map_cons, commaSeparated, List.length_append, List.length_cons] at others ⊢
    exact (components_more part comma.after? others).mono (by omega)

end

theorem literal (v : Literal) : Legible 13 [v.token] (.literal v) := by
  refine of_primary (n := 1) (by simp) (by cases v <;> rfl) ?_
  intro ls ks written _
  obtain ⟨_, ⟨l, hl, rfl⟩, rfl⟩ : ∃ mid, Starts v.token ls mid ∧ mid = ks := by simpa using written
  exact Settles.succ fun fuel _ => by cases v <;> simp [primary, hl, Literal.token]

theorem ident (name : String) : Legible 13 [.ident name] (.ident name) := by
  refine of_primary (n := 1) (by simp) rfl ?_
  intro ls ks written no_call
  obtain ⟨_, ⟨l, hl, rfl⟩, rfl⟩ : ∃ mid, Starts (.ident name) ls mid ∧ mid = ks := by
    simpa using written
  exact primary_ident hl no_call

theorem call (name : String) {args : List Expr} (h : ∀ x ∈ args, Legible 0 x.tokens x) :
    Legible 13
      (.ident name :: PrimScript.parenthesized (commaSeparated (args.map Expr.tokens)))
      (.call name args) := by
  refine of_primary (n := 32 * (commaSeparated (args.map Expr.tokens)).length + 43)
    (by simp [PrimScript.parenthesized]; omega) rfl ?_
  intro ls ks written _
  simp only [PrimScript.parenthesized, spells_cons, spells_append, spells_nil] at written
  obtain ⟨_, ⟨l, hl, rfl⟩, inside, opens, close, inner, _, closes, rfl⟩ := written
  exact primary_call hl opens.after? (items (.inl rfl) h inner closes)
    closes.delimiter

theorem list {es : List Expr} (h : ∀ x ∈ es, Legible 0 x.tokens x) :
    Legible 13
      (.delimiter .openBracket ::
        (commaSeparated (es.map Expr.tokens) ++ [.delimiter .closeBracket]))
      (.list es) := by
  refine of_primary (n := 32 * (commaSeparated (es.map Expr.tokens)).length + 43)
    (by simp; omega) rfl ?_
  intro ls ks written _
  simp only [spells_cons, spells_append, spells_nil] at written
  obtain ⟨_, ⟨l, hl, rfl⟩, close, inner, _, closes, rfl⟩ := written
  exact primary_list hl (items (.inr rfl) h inner closes) closes.delimiter

theorem angled {e v : Expr} (es : List Expr) (hes : es.length ≤ 3)
    (h : ∀ x ∈ e :: es, Legible 8 (x.render 8) x)
    (forms : ∀ ks, vectorOf (e :: es) ks = .ok (v, ks)) :
    Legible 13
      (.symbol .less :: (commaSeparated ((e :: es).map (·.render 8)) ++ [.symbol .greater])) v := by
  refine of_primary (n := 32 * (commaSeparated ((e :: es).map (·.render 8))).length + 41)
    (by simp; omega) rfl ?_
  intro ls ks written _
  simp only [spells_cons, spells_append, spells_nil] at written
  obtain ⟨_, ⟨l, hl, rfl⟩, close, inner, _, closes, rfl⟩ := written
  exact primary_vector hl (components hes h inner closes) (forms _)

section
variable {ts us vs : List Token} {a b c : Expr} {place : Target}

theorem component (h : Legible 13 ts a) (axis : Axis) :
    Legible 13 (ts ++ [.symbol .dot, .ident axis.name]) (.component a axis) := by
  refine of_base (h.opens (by decide)).append ?_
  intro ls ks n r written _ more
  simp only [spells_cons, spells_append, spells_nil] at written
  obtain ⟨mid, of, mid', dot, _, word, rfl⟩ := written
  have suffix := suffixes_component dot.afterSymbol? word.identifier
    (Axis.ofName?_name axis) more
  exact (h.base (by decide) of dot.after?_symbol suffix).mono (by simp; omega)

theorem subscript (h : Legible 13 ts a) (hi : Legible 0 us b) :
    Legible 13 (ts ++ .delimiter .openBracket :: (us ++ [.delimiter .closeBracket]))
      (.subscript a b) := by
  refine of_base (h.opens (by decide)).append ?_
  intro ls ks n r written _ more
  simp only [spells_cons, spells_append, spells_nil] at written
  obtain ⟨mid, of, inside, opens, close, inner, _, closes, rfl⟩ := written
  have suffix := suffixes_subscript opens.afterSymbol?_delimiter
    opens.after? (hi.whole inner (closes.ends rfl))
    (closes.after?_ne (by decide)) closes.delimiter more
  exact (h.base (by decide) of (opens.after?_ne (by decide)) suffix).mono
    (by simp; omega)

theorem slice (h : Legible 13 ts a) (hb : Legible 0 us b) (hc : Legible 0 vs c) :
    Legible 13
      (ts ++ .delimiter .openBracket ::
        (us ++ .delimiter .colon :: (vs ++ [.delimiter .closeBracket])))
      (.slice a b c) := by
  refine of_base (h.opens (by decide)).append ?_
  intro ls ks n r written _ more
  simp only [spells_cons, spells_append, spells_nil] at written
  obtain ⟨mid, of, inside, opens, mid', start, inside', colon, close, stop, _, closes, rfl⟩ :=
    written
  have suffix := suffixes_slice opens.afterSymbol?_delimiter
    opens.after? (hb.whole start (colon.ends rfl))
    colon.after? (hc.whole stop (closes.ends rfl)) closes.delimiter more
  exact (h.base (by decide) of (opens.after?_ne (by decide)) suffix).mono
    (by simp; omega)

theorem unary (op : UnaryOp) (h : Legible 11 ts a) :
    Legible 11 (.symbol op.sign :: ts) (.unary op a) := by
  refine of_tight (by decide) (by cases op <;> rfl) (by omega) ?_
  intro ls ks written ends
  obtain ⟨mid, starts, rest⟩ := spells_cons.mp written
  exact (unary_operator starts.unaryAt?
    (h.tight (by decide) rest ends)).mono (by simp only [List.length_cons]; omega)

theorem cast (type : ValueType) (h : Legible 11 ts a) :
    Legible 11 (.delimiter .openParen :: .type type :: .delimiter .closeParen :: ts)
      (.cast type a) := by
  refine of_tight (by decide) rfl (by omega) ?_
  intro ls ks written ends
  simp only [spells_cons] at written
  obtain ⟨mid, opens, mid', word, mid'', closes, rest⟩ := written
  have no_symbol := opens.symbol?_delimiter
  exact (unary_cast (by simp [unaryAt?, no_symbol]) (by simp [stepAt?, no_symbol])
    (opens.castAt? word closes) (h.tight (by decide) rest ends)).mono (by simp; omega)

theorem binary (op : BinaryOp) (ha : Legible (op.level + 1) ts a)
    (hb : Legible (op.level + 2) us b) :
    Legible (op.level + 1) (ts ++ .symbol op.sign :: us) (.binary op a b) := by
  refine of_operand op.level_lt ha.begins.append ?_
  intro ls ks n r written ends more
  simp only [spells_cons, spells_append] at written
  obtain ⟨mid, left, mid', sign, right⟩ := written
  have after := hb.alone (l := op.level + 1) op.level_lt (by omega) right ends
  have sign_ends : StopsAt (op.level + 2) mid := sign.ends (by cases op <;> rfl)
  have chained := chain_step (a := a) sign.binaryAt? after more
  exact (ha.operand op.level_lt (by omega) left sign_ends chained).mono (by simp; omega)

theorem step_before (op : StepOp) (h : Legible 13 place.tokens place.expr) :
    Legible 11 (.symbol op.sign :: place.tokens) (.step op true place) := by
  refine of_tight (by decide) (by cases op <;> rfl) (by omega) ?_
  intro ls ks written ends
  obtain ⟨mid, starts, rest⟩ := spells_cons.mp written
  have stops : Settles 1 (fun fuel => suffixes fuel place.expr ks) (place.expr, ks) :=
    suffixes_stop ends.afterSymbol?_dot (ends.after?_eq_none (.inl rfl)) ends.stepAt?_eq_none
  have operand := h.base (by decide) rest (ends.after?_eq_none (.inr rfl)) stops
  have no_operator : unaryAt? ls = none := by
    cases op <;> simp [unaryAt?, starts.symbol?, StepOp.sign, Symbol.unary?]
  exact (unary_step no_operator starts.stepAt? operand (target_expr place mid)).mono
    (by simp; omega)

/-- A step after its target is read as far as its operator, whatever comes then: no component,
subscript or second step can follow it without parentheses. -/
theorem postfixed_step (op : StepOp) (h : Legible 13 place.tokens place.expr)
    {ls ks : List Lexeme} (written : Spells (place.tokens ++ [.symbol op.sign]) ls ks) :
    Settles (32 * place.tokens.length + 1) (fun fuel => postfixed fuel ls)
      (.step op false place, ks) := by
  simp only [spells_cons, spells_append, spells_nil] at written
  obtain ⟨mid, of, _, sign, rfl⟩ := written
  have no_dot : afterSymbol? .dot mid = none := by
    cases op <;> simp [afterSymbol?, sign.symbol?, StepOp.sign]
  have suffix := suffixes_step (e := place.expr) no_dot sign.after?_symbol sign.stepAt?
    (target_expr place mid)
  exact (h.base (by decide) of sign.after?_symbol suffix).mono (by omega)

theorem step_after (op : StepOp) (h : Legible 13 place.tokens place.expr) :
    Legible 12 (place.tokens ++ [.symbol op.sign]) (.step op false place) := by
  have opens : Opens (place.tokens ++ [.symbol op.sign]) := (h.opens (by decide)).append
  refine of_tight (by decide) opens.begins (fun _ => opens) ?_
  intro ls ks written _
  exact (unary_postfixed (opens.unaryAt?_eq_none written) (opens.stepAt?_eq_none written)
    (opens.castAt?_eq_none written) (postfixed_step op h written)).mono (by simp; omega)

theorem assign (op : AssignOp) (h : Legible 13 place.tokens place.expr) (hb : Legible 0 us b) :
    Legible 0 (place.tokens ++ .symbol op.sign :: us) (.assign place op b) := by
  refine of_whole h.begins.append ?_
  intro ls ks written ends
  simp only [spells_cons, spells_append] at written
  obtain ⟨mid, left, mid', sign, right⟩ := written
  have place_read := h.alone (l := 0) (by decide) (by decide) left
    (sign.ends (by cases op <;> rfl))
  exact (expression_assign place_read sign.assignAt? (target_expr place ls)
    (hb.whole right ends)).mono (by simp; omega)

end

end Legible

mutual

theorem Expr.legible : (e : Expr) → Legible e.rank e.tokens e
  | .literal v => by simpa [Expr.rank, Expr.tokens] using Legible.literal v
  | .ident name => by simpa [Expr.rank, Expr.tokens] using Legible.ident name
  | .binary op left right => by
    have hop := op.level_lt
    rw [Expr.tokens, Expr.rank, op.rank_eq]
    exact .binary op (left.legible.grouped (by omega)) (right.legible.grouped (by omega))
  | .unary op operand => by
    rw [Expr.tokens, Expr.rank]
    exact .unary op (operand.legible.grouped (by decide))
  | .step op true place => by
    rw [Expr.tokens, Expr.rank]
    exact .step_before op place.legible
  | .step op false place => by
    rw [Expr.tokens, Expr.rank]
    exact .step_after op place.legible
  | .call name args => by
    rw [Expr.tokens, Expr.eachTokens_eq_map]
    exact .call name (Expr.each_legible args)
  | .vector x y z => by
    rw [Expr.tokens]
    refine Legible.angled [y, z] (by simp) ?_ (fun _ => rfl)
    simp only [List.forall_mem_cons, List.not_mem_nil, false_implies, implies_true, and_true]
    exact ⟨x.legible.grouped (by decide), y.legible.grouped (by decide),
      z.legible.grouped (by decide)⟩
  | .rotation x y z s => by
    rw [Expr.tokens]
    refine Legible.angled [y, z, s] (by simp) ?_ (fun _ => rfl)
    simp only [List.forall_mem_cons, List.not_mem_nil, false_implies, implies_true, and_true]
    exact ⟨x.legible.grouped (by decide), y.legible.grouped (by decide),
      z.legible.grouped (by decide), s.legible.grouped (by decide)⟩
  | .list items => by
    rw [Expr.tokens, Expr.eachTokens_eq_map]
    exact .list (Expr.each_legible items)
  | .component of axis => by
    rw [Expr.tokens]
    exact .component (of.legible.grouped (by decide)) axis
  | .subscript list index => by
    rw [Expr.tokens]
    exact .subscript (list.legible.grouped (by decide)) (index.legible.mono (Nat.zero_le _))
  | .slice list start stop => by
    rw [Expr.tokens]
    exact .slice (list.legible.grouped (by decide)) (start.legible.mono (Nat.zero_le _))
      (stop.legible.mono (Nat.zero_le _))
  | .cast type operand => by
    rw [Expr.tokens, Expr.rank]
    exact .cast type (operand.legible.grouped (by decide))
  | .assign place op value => by
    rw [Expr.tokens, Expr.rank]
    exact .assign op place.legible (value.legible.mono (Nat.zero_le _))

theorem Target.legible (t : Target) : Legible 13 t.tokens t.expr := by
  cases t with
  | «variable» name =>
    rw [Target.tokens, Target.expr]
    exact .ident name
  | component name axis =>
    rw [Target.tokens, Target.expr]
    exact .component (.ident name) axis
  | element name index =>
    rw [Target.tokens, Target.expr]
    exact .subscript (.ident name) (index.legible.mono (Nat.zero_le _))

theorem Expr.each_legible : (es : List Expr) → ∀ e ∈ es, Legible 0 e.tokens e
  | [] => by simp
  | e :: es =>
    List.forall_mem_cons.mpr ⟨e.legible.mono (Nat.zero_le _), Expr.each_legible es⟩

end

theorem Expr.parse_of_ends {e : Expr} {ls ks : List Lexeme}
    (written : ls.map (·.token) = e.render 0) (ends : StopsAt 0 ks) :
    Expr.parse (ls ++ ks) = .ok (e, ks) := by
  have length : e.tokens.length = ls.length := by
    simpa [Expr.render, grouped] using (congrArg List.length written).symm
  refine e.legible.whole ⟨ls, by simpa [Expr.render, grouped] using written, rfl⟩ ends _ ?_
  simp only [steps, List.length_append, length]
  omega

def Delimiter.closing : List Delimiter :=
  [.semicolon, .closeParen, .closeBracket, .comma, .colon]

theorem ends_of_closing {ks : List Lexeme}
    (follows : ∀ l ∈ ks.head?, ∃ d ∈ Delimiter.closing, l.token = .delimiter d) : StopsAt 0 ks := by
  intro l hl
  obtain ⟨d, hd, token⟩ := follows l hl
  have none_extends : ∀ d ∈ Delimiter.closing, (Token.delimiter d).extends 0 = false := by decide
  rw [token]
  exact none_extends d hd

/-- Every expression, written with the parentheses that its operators ask for, is read back, and
nothing after it. -/
theorem Expr.parse_render (e : Expr) {ls ks : List Lexeme}
    (written : ls.map (·.token) = e.render 0)
    (follows : ∀ l ∈ ks.head?, ∃ d ∈ Delimiter.closing, l.token = .delimiter d) :
    Expr.parse (ls ++ ks) = .ok (e, ks) :=
  Expr.parse_of_ends written (ends_of_closing follows)

def scaledLexemes : List Lexeme :=
  [.ident "x", .symbol .assign, .symbol .minus, .delimiter .openParen, .ident "a", .symbol .plus,
    .integer 1, .delimiter .closeParen, .symbol .times, .symbol .less, .integer 0,
    .delimiter .comma, .delimiter .openParen, .integer 1, .symbol .less, .ident "b",
    .delimiter .closeParen, .delimiter .comma, .integer 2, .symbol .greater].map
    fun t => { (default : Lexeme) with token := t }

theorem Expr.parse_render_scaled :
    Expr.parse (scaledLexemes ++ [⟨.delimiter .semicolon, default, 0⟩]) =
      .ok (.assign (.variable "x") .assign
          (.binary .multiply
            (.unary .negate (.binary .add (.ident "a") (.literal (.integer 1))))
            (.vector (.literal (.integer 0))
              (.binary .lessThan (.literal (.integer 1)) (.ident "b"))
              (.literal (.integer 2)))),
        [⟨.delimiter .semicolon, default, 0⟩]) :=
  Expr.parse_render _ rfl (by simp [Delimiter.closing])

end PrimScript
