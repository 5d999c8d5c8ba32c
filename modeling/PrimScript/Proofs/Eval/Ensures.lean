import PrimScript.Eval.Run

/-! What an action comes to.  `Meets` looks at both ways in which it can end, with a result and with a
halt; `Ensures` is about actions that keep a property of the machine however they end. -/

namespace PrimScript.Eval

variable {α β : Type}

/-- Started on a machine that satisfies `I` the action leaves one that does, also when it is halted,
and what it comes to satisfies `V`. -/
def Ensures (I : Machine → Prop) (V : α → Prop) (act : Eval α) : Prop :=
  ∀ m, I m → I (act.on m).2 ∧ ∀ a, (act.on m).1 = .ok a → V a

def Ended (Q : α → Machine → Prop) (X : Halt → Machine → Prop) : Except Halt α × Machine → Prop
  | (.ok a, n) => Q a n
  | (.error h, n) => X h n

/-- Started on a machine that satisfies `P` the action leaves one that satisfies `Q` together with what
it comes to, or, when it is halted, one that satisfies `X` together with the reason. -/
def Meets (P : Machine → Prop) (Q : α → Machine → Prop) (X : Halt → Machine → Prop)
    (act : Eval α) : Prop :=
  ∀ m, P m → Ended Q X (act.on m)

namespace Meets

variable {P P' : Machine → Prop} {Q Q' : α → Machine → Prop} {R : β → Machine → Prop}
  {X : Halt → Machine → Prop}

theorem pure {a : α} (h : ∀ m, P m → Q a m) : Meets P Q X (pure a) := h

theorem throw {x : Halt} (h : ∀ m, P m → X x m) : Meets P Q X (throw x) := h

theorem modify {f : Machine → Machine} {Q : PUnit → Machine → Prop}
    (h : ∀ m, P m → Q .unit (f m)) : Meets P Q X (modify f : Eval PUnit) := h

theorem bind {act : Eval α} {next : α → Eval β} (h : Meets P Q X act)
    (hn : ∀ a, Meets (Q a) R X (next a)) : Meets P R X (act >>= next) := by
  intro m hm
  have hr := h m hm
  rw [on_bind]
  generalize act.on m = r at hr ⊢
  rcases r with ⟨x | a, n⟩
  · exact hr
  · exact hn a n hr

theorem mono {act : Eval α} (h : Meets P Q X act) (hp : ∀ m, P' m → P m)
    (hq : ∀ a m, Q a m → Q' a m) : Meets P' Q' X act := by
  intro m hm
  have hr := h m (hp m hm)
  generalize act.on m = r at hr ⊢
  rcases r with ⟨x | a, n⟩
  · exact hr
  · exact hq a n hr

theorem discard {act : Eval α} (h : Meets P Q X act) (hq : ∀ a m, Q a m → P' m) :
    Meets P (fun _ => P') X (discard act) := by
  rw [discard_eq_bind]
  exact h.bind fun a => pure (hq a)

theorem get_bind {next : Machine → Eval α} (h : ∀ m, P m → Meets P Q X (next m)) :
    Meets P Q X (get >>= next) := by
  intro m hm
  rw [on_bind]
  exact h m hm m hm

theorem ok {act : Eval α} (h : Meets P Q X act) {m n : Machine} {a : α} (hm : P m)
    (hr : act.on m = (.ok a, n)) : Q a n := by
  have hq := h m hm
  rwa [hr] at hq

theorem error {act : Eval α} (h : Meets P Q X act) {m n : Machine} {x : Halt} (hm : P m)
    (hr : act.on m = (.error x, n)) : X x n := by
  have hx := h m hm
  rwa [hr] at hx

end Meets

variable {I : Machine → Prop} {V : α → Prop}

theorem ensures_iff_meets {act : Eval α} :
    Ensures I V act ↔ Meets I (fun a m => I m ∧ V a) (fun _ m => I m) act := by
  refine forall₂_congr fun m _ => ?_
  rcases act.on m with ⟨x | a, n⟩
  · exact ⟨And.left, fun hm => ⟨hm, fun a ha => nomatch ha⟩⟩
  · refine and_congr_right fun _ => ⟨fun h => h a rfl, ?_⟩
    rintro hv _ ⟨⟩
    exact hv

theorem Ensures.fail (e : EvalError) : Ensures I V (Eval.fail e) := fun _ hm => ⟨hm, nofun⟩

end PrimScript.Eval
