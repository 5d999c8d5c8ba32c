/-! Tables indexed by name.  The entries stand in the order of their names, by code points, and
each name has one entry. -/

namespace PrimScript

abbrev NameMap (α : Type) := List (String × α)

namespace NameMap

variable {α : Type}

def find? (name : String) : NameMap α → Option α
  | [] => none
  | (n, a) :: entries => if n = name then some a else find? name entries

def contains (name : String) (m : NameMap α) : Bool := (m.find? name).isSome

def insert (name : String) (a : α) : NameMap α → NameMap α
  | [] => [(name, a)]
  | (n, b) :: entries =>
    if n = name then (name, a) :: entries
    else if name < n then (name, a) :: (n, b) :: entries
    else (n, b) :: insert name a entries

/-- The table of the given entries; of two with one name the later one counts. -/
def ofList (entries : List (String × α)) : NameMap α :=
  entries.foldl (fun m (name, a) => insert name a m) []

def names (m : NameMap α) : List String := m.map (·.1)

@[simp] theorem find?_insert_self (name : String) (a : α) (m : NameMap α) :
    find? name (insert name a m) = some a := by
  induction m with
  | nil => simp [insert, find?]
  | cons e m ih =>
    obtain ⟨n, b⟩ := e
    by_cases h : n = name
    · simp [insert, find?, h]
    · by_cases hl : name < n
      · simp [insert, find?, h, hl]
      · simp [insert, find?, h, hl, ih]

theorem find?_insert_of_ne {name other : String} (h : other ≠ name) (a : α) (m : NameMap α) :
    find? other (insert name a m) = find? other m := by
  have h' : name ≠ other := fun e => h e.symm
  induction m with
  | nil => simp [insert, find?, h']
  | cons e m ih =>
    obtain ⟨n, b⟩ := e
    by_cases hn : n = name
    · subst hn
      simp [insert, find?, h']
    · by_cases hl : name < n
      · simp [insert, find?, hn, hl, h']
      · simp [insert, find?, hn, hl, ih]

theorem mem_of_find? {name : String} {a : α} {m : NameMap α}
    (h : m.find? name = some a) : (name, a) ∈ m := by
  induction m with
  | nil => cases h
  | cons entry m ih =>
    obtain ⟨n, b⟩ := entry
    rw [find?] at h
    split at h
    · next hn =>
      cases h
      rw [hn]
      exact List.mem_cons_self
    · exact List.mem_cons_of_mem _ (ih h)

theorem forall_insert {p : String × α → Prop} {name : String} {a : α}
    {m : NameMap α} (ha : p (name, a)) (hm : ∀ x ∈ m, p x) : ∀ x ∈ m.insert name a, p x := by
  induction m with
  | nil => simpa [insert] using ha
  | cons entry m ih =>
    rw [List.forall_mem_cons] at hm
    rw [insert]
    split
    · exact List.forall_mem_cons.2 ⟨ha, hm.2⟩
    · split
      · exact List.forall_mem_cons.2 ⟨ha, List.forall_mem_cons.2 hm⟩
      · exact List.forall_mem_cons.2 ⟨hm.1, ih hm.2⟩

def Sorted (m : NameMap α) : Prop := m.Pairwise (·.1 < ·.1)

instance (m : NameMap α) : Decidable m.Sorted :=
  inferInstanceAs (Decidable (m.Pairwise (·.1 < ·.1)))

theorem sorted_insert {m : NameMap α} (h : m.Sorted) (name : String) (a : α) :
    (m.insert name a).Sorted := by
  induction m with
  | nil => simp [Sorted, insert]
  | cons entry m ih =>
    obtain ⟨n, b⟩ := entry
    obtain ⟨hn, hm⟩ := List.pairwise_cons.mp h
    rw [insert]
    split
    · next e => exact List.pairwise_cons.mpr ⟨fun x hx => e ▸ hn x hx, hm⟩
    · next differs =>
      split
      · next before =>
        refine List.pairwise_cons.mpr ⟨List.forall_mem_cons.mpr ⟨before, fun x hx => ?_⟩, h⟩
        exact String.lt_trans before (hn x hx)
      · next after =>
        have follows : n < name := Std.lt_of_le_of_ne (String.not_lt.mp after) differs
        exact List.pairwise_cons.mpr ⟨forall_insert follows hn, ih hm⟩

theorem Sorted.find?_eq_some {name : String} {a : α} {m : NameMap α} (h : m.Sorted)
    (hm : (name, a) ∈ m) : m.find? name = some a := by
  induction m with
  | nil => cases hm
  | cons entry m ih =>
    obtain ⟨n, b⟩ := entry
    obtain ⟨hn, hs⟩ := List.pairwise_cons.mp h
    rw [NameMap.find?]
    rcases List.mem_cons.mp hm with he | hm
    · cases he
      exact if_pos rfl
    · have differs : n ≠ name := fun e => String.lt_irrefl name (e ▸ hn _ hm)
      rw [if_neg differs, ih hs hm]

theorem sorted_ofList (entries : List (String × α)) : Sorted (ofList entries) := by
  have fold : ∀ (entries : List (String × α)) (m : NameMap α), m.Sorted →
      Sorted (entries.foldl (fun m (name, a) => insert name a m) m) := by
    intro entries
    induction entries with
    | nil => exact fun _ h => h
    | cons entry entries ih => exact fun m h => ih _ (sorted_insert h entry.1 entry.2)
  exact fold entries [] List.Pairwise.nil

theorem insert_of_forall_lt {name : String} {a : α} {m : NameMap α}
    (h : ∀ e ∈ m, e.1 < name) : m.insert name a = m ++ [(name, a)] := by
  induction m with
  | nil => rfl
  | cons entry m ih =>
    rw [List.forall_mem_cons] at h
    have differs : entry.1 ≠ name := fun e => String.lt_irrefl name (e ▸ h.1)
    have after : ¬ name < entry.1 := String.lt_asymm h.1
    simp [insert, differs, after, ih h.2]

theorem Sorted.ofList_eq {m : NameMap α} (h : m.Sorted) : ofList m = m := by
  have fold : ∀ rest pre : NameMap α, (pre ++ rest).Pairwise (·.1 < ·.1) →
      rest.foldl (fun m (name, a) => insert name a m) pre = pre ++ rest := by
    intro rest
    induction rest with
    | nil => simp
    | cons entry rest ih =>
      obtain ⟨name, a⟩ := entry
      intro pre hs
      have before : ∀ e ∈ pre, e.1 < name := fun e he =>
        (List.pairwise_append.mp hs).2.2 e he (name, a) List.mem_cons_self
      simp only [List.foldl_cons]
      rw [insert_of_forall_lt before, ih _ (by simpa using hs)]
      simp
  exact fold m [] h

end NameMap

end PrimScript
