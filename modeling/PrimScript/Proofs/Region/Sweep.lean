import Mathlib.Data.List.Nodup
import Mathlib.Data.List.Sort
import PrimScript.Proofs.Decimal.Order
import PrimScript.Region.Sweep

/-! A sweep reports the nearest of the entities that its query admits, whatever order they come in: it sorts
all of them by the ranks of their distances before it leaves any out. -/

namespace PrimScript

section Rank

open Decimal.Expansion

/-- The rank of a number of the given size; those of negative numbers leave a place for negative zero. -/
def ranked (negative : Bool) (size : Nat) : Int := if negative then -1 - (size : Int) else size

theorem ranked_lt_ranked {negative negative' : Bool} {size size' : Nat}
    (h : withSign negative size < withSign negative' size') :
    ranked negative size < ranked negative' size' := by
  cases negative <;> cases negative' <;>
    simp only [withSign, ranked, Bool.false_eq_true, if_true, if_false] at h ⊢ <;> omega

theorem rank_eq (x : Float) : rank x = ranked (x.toBits >>> 63 == 1) (x.toBits.toNat % 2 ^ 63) := by
  have hlt := x.toBits.toNat_lt
  have hs : (x.toBits >>> 63 == 1) = true ↔ 2 ^ 63 ≤ x.toBits.toNat := by
    have hb : (x.toBits >>> 63).toNat = x.toBits.toNat / 2 ^ 63 := by
      simp [Nat.shiftRight_eq_div_pow]
    rw [beq_iff_eq, ← UInt64.toNat_inj, hb, UInt64.toNat_one]
    omega
  have hp : Nat.pow 2 63 = 2 ^ 63 := rfl
  unfold rank ranked
  dsimp only
  rw [hp]
  split
  · rw [if_neg (by rw [hs]; omega)]
    omega
  · rw [if_pos (by rw [hs]; omega)]
    omega

theorem rank_lt_rank {x y : Float} (h : x < y) : rank x < rank y := by
  obtain ⟨i, hi, j, hj, hlt⟩ := (lt_iff_place? x y).1 h
  rw [eq_withSign_of_place? hi, eq_withSign_of_place? hj] at hlt
  rw [rank_eq, rank_eq]
  exact ranked_lt_ranked hlt

end Rank

def Vantage.distance (v : Vantage) (e : Entity) : Float := Vector3.magnitude (e.position.sub v.position)

def Vantage.angle (v : Vantage) (e : Entity) : Float :=
  (SensorQuery.clamp ((v.rotation.apply ⟨1, 0, 0⟩).dot (e.position.sub v.position) / v.distance e)
    (-1) 1).acos

namespace SensorQuery

def Keyed (q : SensorQuery) (e : Entity) : Prop :=
  Key.normalize q.key = Key.null ∨ e.key = Key.normalize q.key

structure Admits (q : SensorQuery) (v : Vantage) (e : Entity) : Prop where
  name : q.name = "" ∨ e.name = q.name
  type : e.type &&& q.mask ≠ 0
  range : ¬ clamp q.range 0 maxRange < v.distance e
  arc : q.arc < pi → 0 < v.distance e → ¬ q.arc < v.angle e

def Passes (q : SensorQuery) (v : Vantage) (e : Entity) : Prop := q.Keyed e ∧ q.Admits v e

instance (q : SensorQuery) (e : Entity) : Decidable (q.Keyed e) :=
  inferInstanceAs (Decidable (_ ∨ _))

instance (q : SensorQuery) (v : Vantage) (e : Entity) : Decidable (q.Admits v e) :=
  decidable_of_iff (_ ∧ _ ∧ _ ∧ _) ⟨fun ⟨name, type, range, arc⟩ => ⟨name, type, range, arc⟩,
    fun ⟨name, type, range, arc⟩ => ⟨name, type, range, arc⟩⟩

instance (q : SensorQuery) (v : Vantage) (e : Entity) : Decidable (q.Passes v e) :=
  inferInstanceAs (Decidable (_ ∧ _))

variable {q : SensorQuery} {v : Vantage} {e : Entity}

theorem selects_iff : q.selects e = true ↔
    (q.name = "" ∨ e.name = q.name) ∧ q.Keyed e ∧ e.type &&& q.mask ≠ 0 := by
  simp [selects, Keyed, and_assoc]

theorem reaches_iff : q.reaches (v.rotation.apply ⟨1, 0, 0⟩) (e.position.sub v.position)
      (v.distance e) = true ↔
    ¬ clamp q.range 0 maxRange < v.distance e ∧
      (q.arc < pi → 0 < v.distance e → ¬ q.arc < v.angle e) := by
  simp [reaches, Vantage.angle, or_iff_not_imp_left]

theorem distance?_eq_some_iff {d : Float} :
    q.distance? v e = some d ↔ q.Passes v e ∧ v.distance e = d := by
  have hd : q.distance? v e =
      if q.selects e && q.reaches (v.rotation.apply ⟨1, 0, 0⟩) (e.position.sub v.position)
        (v.distance e) then some (v.distance e) else none := rfl
  have hp : q.Passes v e ↔ (q.selects e && q.reaches (v.rotation.apply ⟨1, 0, 0⟩)
      (e.position.sub v.position) (v.distance e)) = true := by
    rw [Bool.and_eq_true, selects_iff, reaches_iff]
    constructor
    · rintro ⟨hkey, hname, htype, hrange, harc⟩
      exact ⟨⟨hname, hkey, htype⟩, hrange, harc⟩
    · rintro ⟨⟨hname, hkey, htype⟩, hrange, harc⟩
      exact ⟨hkey, hname, htype, hrange, harc⟩
  rw [hd, hp, Option.ite_none_right_eq_some, Option.some.injEq]

theorem Admits.not_maxRange_lt (h : q.Admits v e) (hr : q.range.isNaN = false) :
    ¬ maxRange < v.distance e := by
  intro hd
  refine h.range ?_
  unfold clamp
  split
  · exact Decimal.Expansion.lt_trans (by decide +kernel) hd
  · split
    · exact hd
    · next hle => exact Decimal.Expansion.lt_of_not_lt_of_lt hr hle hd

end SensorQuery

section Hits

theorem insertHit_eq (hit : Float × Entity) (hits : List (Float × Entity)) :
    insertHit hit hits = hits.orderedInsert (fun a b => nearer a.1 b.1) hit := by
  induction hits with
  | nil => rfl
  | cons h hits ih => rw [insertHit, ih, List.orderedInsert_cons]

theorem perm_insertHit (hit : Float × Entity) (hits : List (Float × Entity)) :
    (insertHit hit hits).Perm (hit :: hits) := by
  rw [insertHit_eq]
  exact List.perm_orderedInsert _ hit hits

def InOrder (hits : List (Float × Entity)) : Prop := hits.Pairwise fun a b => rank a.1 ≤ rank b.1

theorem InOrder.insertHit {hits : List (Float × Entity)} (h : InOrder hits) (hit : Float × Entity) :
    InOrder (insertHit hit hits) := by
  induction hits with
  | nil => exact List.pairwise_singleton _ _
  | cons first hits ih =>
    obtain ⟨hfirst, hhits⟩ := List.pairwise_cons.1 h
    rw [PrimScript.insertHit]
    split
    · next hn =>
      have hlt : rank hit.1 < rank first.1 := of_decide_eq_true hn
      refine List.pairwise_cons.2 ⟨List.forall_mem_cons.2 ⟨Int.le_of_lt hlt, fun x hx => ?_⟩, h⟩
      exact Int.le_trans (Int.le_of_lt hlt) (hfirst x hx)
    · next hn =>
      have hle : rank first.1 ≤ rank hit.1 := Int.not_lt.1 fun hlt => hn (decide_eq_true hlt)
      refine List.pairwise_cons.2 ⟨fun x hx => ?_, ih hhits⟩
      rcases List.mem_cons.1 ((perm_insertHit hit hits).mem_iff.1 hx) with rfl | hx
      · exact hle
      · exact hfirst x hx

def sortHits (hits : List (Float × Entity)) : List (Float × Entity) :=
  hits.foldl (fun sorted hit => insertHit hit sorted) []

theorem perm_sortHits (hits : List (Float × Entity)) : (sortHits hits).Perm hits := by
  have fold : ∀ hits sorted : List (Float × Entity),
      (hits.foldl (fun sorted hit => insertHit hit sorted) sorted).Perm (hits ++ sorted) := by
    intro hits
    induction hits with
    | nil => exact fun _ => .refl _
    | cons hit hits ih =>
      exact fun sorted =>
        (ih _).trans (((perm_insertHit hit sorted).append_left hits).trans List.perm_middle)
  have h := fold hits []
  rwa [List.append_nil] at h

theorem inOrder_sortHits (hits : List (Float × Entity)) : InOrder (sortHits hits) := by
  have fold : ∀ hits sorted : List (Float × Entity), InOrder sorted →
      InOrder (hits.foldl (fun sorted hit => insertHit hit sorted) sorted) := by
    intro hits
    induction hits with
    | nil => exact fun _ h => h
    | cons hit hits ih => exact fun sorted h => ih _ (h.insertHit hit)
  exact fold hits [] List.Pairwise.nil

end Hits

section Sweep

variable (entities : List Entity) (q : SensorQuery) (v : Vantage) (count : Nat)

theorem hits_eq : (entities.filterMap fun e => (q.distance? v e).map (·, e)) =
    (entities.filter fun e => q.Passes v e).map fun e => (v.distance e, e) := by
  rw [← List.filterMap_eq_map, List.filterMap_filter]
  refine List.filterMap_congr fun e _ => ?_
  by_cases hp : q.Passes v e
  · rw [SensorQuery.distance?_eq_some_iff.2 ⟨hp, rfl⟩]
    simp [hp]
  · have hn : q.distance? v e = none := by
      rw [Option.eq_none_iff_forall_not_mem]
      exact fun d hd => hp (SensorQuery.distance?_eq_some_iff.1 hd).1
    simp [hp, hn]

theorem exists_sweep_eq_take : ∃ passing : List Entity,
    passing.Perm (entities.filter fun e => q.Passes v e) ∧
    passing.Pairwise (fun e f => rank (v.distance e) ≤ rank (v.distance f)) ∧
    sweep entities q v count = passing.take count := by
  let hits := (entities.filter fun e => q.Passes v e).map fun e => (v.distance e, e)
  have hp := perm_sortHits hits
  refine ⟨(sortHits hits).map (·.2), ?_, ?_, ?_⟩
  · have h := hp.map (·.2)
    rwa [List.map_map, List.map_id''] at h
    exact fun _ => rfl
  · -- a hit carries the distance of its entity
    have hd : ∀ x ∈ sortHits hits, x.1 = v.distance x.2 := by
      intro x hx
      obtain ⟨e, -, rfl⟩ := List.mem_map.1 (hp.mem_iff.1 hx)
      rfl
    refine List.pairwise_map.2 ((inOrder_sortHits hits).imp_of_mem fun ha hb h => ?_)
    rwa [← hd _ ha, ← hd _ hb]
  · rw [← List.map_take, sweep, hits_eq]
    rfl

/-- What a sweep is to find: of the entities that pass, as many as it may, each once, with the nearest
first, and none that is farther than one that is left out. -/
structure Nearest (found : List Entity) : Prop where
  nodup : found.Nodup
  sorted : found.Pairwise fun e f => rank (v.distance e) ≤ rank (v.distance f)
  sound : ∀ e ∈ found, e ∈ entities ∧ q.Passes v e
  length : found.length = min count (entities.countP fun e => q.Passes v e)
  nearest : ∀ e ∈ entities, q.Passes v e → e ∉ found → ∀ f ∈ found,
    rank (v.distance f) ≤ rank (v.distance e) ∧ ¬ v.distance e < v.distance f
  reach : q.range.isNaN = false → ∀ e ∈ found, ¬ SensorQuery.maxRange < v.distance e

structure Announces (found : List Entity) (e : Event) : Prop where
  nothing : found = [] → e = .ofKind .noSensor []
  something : found ≠ [] →
    e.kind = .sensor ∧ e.args = [.integer (Int32.ofNat found.length)] ∧ e.detected = found
  /-- The number is not cut short. -/
  number : found.length < 2 ^ 31 → (Int32.ofNat found.length).toInt = found.length

theorem announces_sweepEvent (found : List Entity) : Announces found (sweepEvent found) where
  nothing h := by rw [h]; rfl
  something h := by
    have he : found.isEmpty = false := by simpa using h
    simp [sweepEvent, he, Event.withDetected, Event.ofKind]
  number h := Int32.toInt_ofNat_of_lt h

variable {entities}

theorem sweep_nearest (h : entities.Nodup) :
    Nearest entities q v count (sweep entities q v count) ∧
      Announces (sweep entities q v count) (sweepEvent (sweep entities q v count)) := by
  obtain ⟨passing, hperm, hsorted, hsweep⟩ := exists_sweep_eq_take entities q v count
  have hmem : ∀ e, e ∈ passing ↔ e ∈ entities ∧ q.Passes v e := by
    intro e
    rw [hperm.mem_iff, List.mem_filter, decide_eq_true_iff]
  refine ⟨?_, announces_sweepEvent _⟩
  rw [hsweep]
  constructor
  case nodup => exact (hperm.nodup_iff.2 (h.filter _)).sublist (List.take_sublist count passing)
  case sorted => exact hsorted.sublist (List.take_sublist count passing)
  case sound => exact fun e he => (hmem e).1 (List.mem_of_mem_take he)
  case length => rw [List.length_take, hperm.length_eq, List.countP_eq_length_filter]
  case nearest =>
    intro e he hp hn f hf
    have hs := hsorted
    rw [← List.take_append_drop count passing, List.pairwise_append] at hs
    -- what is left out stands behind all that is taken
    have hd : e ∈ passing.drop count := by
      have hm := (hmem e).2 ⟨he, hp⟩
      rw [← List.take_append_drop count passing, List.mem_append] at hm
      exact hm.resolve_left hn
    have hle := hs.2.2 f hf e hd
    exact ⟨hle, fun hlt => Int.not_le.2 (rank_lt_rank hlt) hle⟩
  case reach =>
    exact fun hr e he => ((hmem e).1 (List.mem_of_mem_take he)).2.2.not_maxRange_lt hr

end Sweep

section Crowd

def Entity.ahead (name : String) (x : Float) : Entity := .avatar name Key.null ⟨x, 0, 0⟩

def Vantage.origin : Vantage := ⟨Vector3.zero, Rotation.identity⟩

def SensorQuery.anyone : SensorQuery := ⟨"", "", Entity.agentBit, maxRange, pi⟩

theorem sweep_nearest_crowd :
    [Entity.ahead "far" 20, .ahead "out" 200, .ahead "near" 2].Nodup ∧
      Nearest [.ahead "far" 20, .ahead "out" 200, .ahead "near" 2] .anyone .origin 1
        (sweep [.ahead "far" 20, .ahead "out" 200, .ahead "near" 2] .anyone .origin 1) ∧
      (sweep [.ahead "far" 20, .ahead "out" 200, .ahead "near" 2] .anyone .origin 1).map (·.name) =
        ["near"] := by
  have hd : [Entity.ahead "far" 20, .ahead "out" 200, .ahead "near" 2].Nodup :=
    .of_map Entity.name (by decide)
  exact ⟨hd, (sweep_nearest .anyone .origin 1 hd).1, by decide +kernel⟩

end Crowd

end PrimScript
