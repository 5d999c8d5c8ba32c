import Mathlib.Data.List.Nodup
import PrimScript.Proofs.Region.Sweep
import PrimScript.Proofs.Value.WellFormed
import PrimScript.World.Basic

/-! Entities by their keys.  A region files each entity under the canonical form of its key, and looks it up by
the canonical form of what it is asked for; a sweep compares the key of the entity as it was given.  So a sweep
for a key finds no other entity than the lookup does, and finds that one only when its key is canonical. -/

namespace PrimScript

namespace Region

/-- The regions that come about: of a world at its start, and when entities come and go. -/
inductive Arises : Region → Prop
  | start (s : Settings) (around : Surroundings) : Arises (World.ofSettings s around).region
  | place {r : Region} (e : Entity) : Arises r → Arises (r.place e)
  | remove {r : Region} (key : String) : Arises r → Arises (r.remove key)

/-- Each entity is filed under the canonical form of its key, and no two under the same. -/
structure Filed (r : Region) : Prop where
  sorted : NameMap.Sorted r
  keyed : ∀ x ∈ r, x.1 = Key.normalize x.2.key

namespace Filed

variable {r : Region} {key : String} {e : Entity}

theorem empty : Filed [] := ⟨List.Pairwise.nil, fun _ hx => nomatch hx⟩

theorem insert (h : Filed r) (hk : key = Key.normalize e.key) : Filed (NameMap.insert key e r) :=
  ⟨NameMap.sorted_insert h.sorted key e, NameMap.forall_insert hk h.keyed⟩

theorem place (h : Filed r) (e : Entity) : Filed (r.place e) := h.insert rfl

theorem remove (h : Filed r) (key : String) : Filed (r.remove key) :=
  ⟨h.sorted.sublist List.filter_sublist, fun x hx => h.keyed x (List.mem_of_mem_filter hx)⟩

end Filed

end Region

namespace World

variable {w : World}

theorem isCanonical_fst_keyOr (w : World) (key : Option String) :
    Key.isCanonical (w.keyOr key).1 := by
  cases key with
  | none => exact w.around.keys.canonical _
  | some k => exact Key.isCanonical_normalize k

theorem region_keyOr (w : World) (key : Option String) : (w.keyOr key).2.region = w.region := by
  cases key <;> rfl

theorem filed_placeSettings (h : w.region.Filed) (e : EntitySettings) :
    (w.placeSettings e).region.Filed := by
  have hk := Key.normalize_of_isCanonical (w.isCanonical_fst_keyOr e.key)
  rw [← w.region_keyOr e.key] at h
  exact h.insert hk.symm

theorem filed_foldl_placeSettings (h : w.region.Filed) (es : List EntitySettings) :
    (es.foldl placeSettings w).region.Filed := by
  induction es generalizing w with
  | nil => exact h
  | cons e es ih => exact ih (filed_placeSettings h e)

theorem filed_ofSettings (s : Settings) (around : Surroundings) :
    (ofSettings s around).region.Filed := by
  unfold ofSettings
  dsimp only
  rw [region_keyOr, region_keyOr]
  exact filed_foldl_placeSettings .empty _

end World

namespace Region

theorem Arises.filed {r : Region} (h : Arises r) : Filed r := by
  induction h with
  | start s around => exact World.filed_ofSettings s around
  | place e _ ih => exact ih.place e
  | remove key _ ih => exact ih.remove key

namespace Filed

variable {r : Region} {k : String} {e : Entity}

theorem entity?_eq_some_iff (h : Filed r) :
    r.entity? k = some e ↔ e ∈ r.entities ∧ Key.normalize e.key = Key.normalize k := by
  constructor
  · intro he
    have hm := NameMap.mem_of_find? he
    exact ⟨List.mem_map_of_mem hm, (h.keyed _ hm).symm⟩
  · rintro ⟨he, hk⟩
    obtain ⟨⟨n, e⟩, hm, rfl⟩ := List.mem_map.1 he
    have hn : n = Key.normalize k := (h.keyed _ hm).trans hk
    rw [entity?, ← hn]
    exact NameMap.Sorted.find?_eq_some h.sorted hm

theorem nodup_entities (h : Filed r) : r.entities.Nodup := by
  refine List.pairwise_map.2 (h.sorted.imp_of_mem fun {x y} hx hy hlt he => ?_)
  rw [h.keyed x hx, h.keyed y hy, he] at hlt
  exact String.lt_irrefl _ hlt

end Filed

variable {r : Region} {k : String} {q : SensorQuery}

/-- A sweep for a key that is not null finds the entity that is looked up by that key, if it is admitted and
its own key is canonical, and nothing else. -/
theorem sweep_eq_entity? (h : Arises r) (hk : Key.normalize q.key = Key.normalize k)
    (hn : Key.normalize k ≠ Key.null) (v : Vantage) (count : Nat) :
    sweep r.entities q v count =
      ((r.entity? k).filter fun e => e.key = Key.normalize k ∧ q.Admits v e).toList.take count := by
  let o := (r.entity? k).filter fun e => e.key = Key.normalize k ∧ q.Admits v e
  have hf := h.filed
  have ho (e : Entity) : e ∈ o.toList ↔ e ∈ r.entities ∧ q.Passes v e := by
    have hkeyed : q.Keyed e ↔ e.key = Key.normalize k := by
      rw [SensorQuery.Keyed, hk, or_iff_right hn]
    rw [Option.mem_toList, Option.filter_eq_some_iff, hf.entity?_eq_some_iff, decide_eq_true_iff,
      SensorQuery.Passes, hkeyed, and_assoc]
    refine and_congr_right fun _ => ⟨fun he => he.2, fun he => ⟨?_, he⟩⟩
    rw [he.1, Key.normalize_of_isCanonical (Key.isCanonical_normalize k)]
  -- neither list has an entity twice
  have hp : (r.entities.filter fun e => q.Passes v e).Perm o.toList := by
    refine (List.perm_ext_iff_of_nodup (hf.nodup_entities.filter _) ?_).2 fun e => ?_
    · cases o <;> simp
    · rw [ho, List.mem_filter, decide_eq_true_iff]
  obtain ⟨passing, hperm, -, hsweep⟩ := exists_sweep_eq_take r.entities q v count
  have he : passing = o.toList := by
    have hpo := hperm.trans hp
    cases ho' : o with
    | none => simpa [ho'] using hpo
    | some e => simpa [ho'] using hpo
  rw [hsweep, he]

section Visitor

def visitorKey : String := "a2e76fcd-9360-4f6d-a924-000000000003"

def visitorCapitals : String := "A2E76FCD-9360-4F6D-A924-000000000003"

def withVisitor (key : String) : Region :=
  (World.ofSettings .default (.plain [])).region.place { Entity.ahead "Bob" 1 with key := key }

theorem arises_withVisitor (key : String) : Arises (withVisitor key) := .place _ (.start .default (.plain []))

def visitorQuery : SensorQuery := { SensorQuery.anyone with key := visitorKey }

theorem sweep_eq_entity?_visitor :
    Key.normalize visitorQuery.key = Key.normalize visitorCapitals ∧
      Key.normalize visitorCapitals ≠ Key.null ∧
      (sweep (withVisitor visitorKey).entities visitorQuery .origin 1).map (·.name) = ["Bob"] := by
  have hk : Key.normalize visitorQuery.key = Key.normalize visitorCapitals := by decide +kernel
  have hn : Key.normalize visitorCapitals ≠ Key.null := by decide +kernel
  refine ⟨hk, hn, ?_⟩
  rw [sweep_eq_entity? (arises_withVisitor visitorKey) hk hn .origin 1]
  decide +kernel

/-- The visitor whose key was given in capitals is looked up by it, and is not found by a sweep for it. -/
theorem sweep_visitorCapitals : ∃ r, Arises r ∧ ∃ e, r.entity? visitorKey = some e ∧
    Key.normalize visitorQuery.key = Key.normalize visitorKey ∧
    Key.normalize visitorKey ≠ Key.null ∧ visitorQuery.Admits .origin e ∧
    sweep r.entities visitorQuery .origin 1 = [] := by
  refine ⟨_, arises_withVisitor visitorCapitals, _, rfl, rfl, by decide +kernel, by decide +kernel, ?_⟩
  refine List.map_eq_nil_iff.1 (?_ : List.map Entity.name _ = [])
  decide +kernel

end Visitor

end Region

end PrimScript
