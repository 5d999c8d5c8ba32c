/-! Histories: what has happened so far, in its order.  They are there for proofs to look at and for
nothing else, so that none is kept when a program runs. -/

namespace PrimScript

structure History (α : Type) where
  is : List α → Prop
  exists_is : ∃ l, is = (· = l)

namespace History

variable {α : Type}

noncomputable def toList (h : History α) : List α := h.exists_is.choose

def empty : History α := ⟨(· = []), [], rfl⟩

def push (h : History α) (a : α) : History α := ⟨(· = h.toList ++ [a]), _, rfl⟩

def append (h : History α) (l : List α) : History α := ⟨(· = h.toList ++ l), _, rfl⟩

theorem toList_of_is {h : History α} {l : List α} (hl : h.is = (· = l)) : h.toList = l := by
  have hs : (· = l) = (· = h.toList) := hl.symm.trans h.exists_is.choose_spec
  exact ((congrFun hs l).mp rfl).symm

@[simp] theorem toList_empty : (empty : History α).toList = [] := toList_of_is rfl

@[simp] theorem toList_push (h : History α) (a : α) : (h.push a).toList = h.toList ++ [a] :=
  toList_of_is rfl

@[simp] theorem toList_append (h : History α) (l : List α) : (h.append l).toList = h.toList ++ l :=
  toList_of_is rfl

end History

end PrimScript
