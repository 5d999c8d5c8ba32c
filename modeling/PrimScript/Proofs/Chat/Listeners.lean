import Mathlib.Data.List.Basic
import PrimScript.Chat.Listener

/-! Listeners through any requests.  A listener is known by the number of the request that added it; it is there
until a request takes it away, it hears while the last request that says whether it is active says so, and its
handle is never given to another. -/

namespace PrimScript

namespace ListenerRequest

def drops (handle : Int32) : ListenerRequest → Bool
  | .remove h => h = handle
  | .clear => true
  | _ => false

def activity? (handle : Int32) : ListenerRequest → Option Bool
  | .setActive h active => if h = handle then some active else none
  | _ => none

def keep (r : ListenerRequest) (x : Int32 × Listener) : Option (Int32 × Listener) :=
  if r.drops x.1 then none
  else some (x.1, { x.2 with active := (r.activity? x.1).getD x.2.active })

def listener? : ListenerRequest → Option Listener
  | .add channel name key message => some ⟨channel, name, Key.normalize key, message, true⟩
  | _ => none

end ListenerRequest

namespace Listeners

def after (t : Listeners) (rs : List ListenerRequest) : Listeners :=
  rs.foldl (fun t r => (t.serve r).2) t

section Run

variable (rs : List ListenerRequest)

/-- The listeners when it has come to the request with the number `j`, where there were none at first. -/
def before (j : Nat) : Listeners := empty.after (rs.take j)

def answer? (j : Nat) : Option ListenerAnswer := rs[j]?.map fun r => ((before rs j).serve r).1

def handle? (i : Nat) : Option Int32 :=
  match answer? rs i with
  | some (.added handle) => handle
  | _ => none

def between (i j : Nat) : List ListenerRequest := (rs.take j).drop (i + 1)

/-- The handle of the listener added with the request that has the number `i`, if none before the one with the
number `j` has taken it away. -/
def kept? (i j : Nat) : Option Int32 :=
  (handle? rs i).filter fun handle => !(between rs i j).any (·.drops handle)

/-- The listeners added before the request with the number `j` and not taken away by then, each with the number
of the request that added it. -/
def held (j : Nat) : List (Nat × Int32) :=
  (List.range j).filterMap fun i => (kept? rs i j).map (i, ·)

/-- Is the listener added with the request that has the number `i` active when it has come to the one with the
number `j`?  The last request about that decides. -/
def active (i j : Nat) (handle : Int32) : Bool :=
  ((between rs i j).filterMap (·.activity? handle)).getLastD true

def added (j : Nat) : Nat := (List.range j).countP fun i => (handle? rs i).isSome

/-- What becomes of listeners in the course of the requests. -/
structure Account : Prop where
  positive : ∀ i handle, handle? rs i = some handle → 0 < handle
  /-- A handle is larger than those given out before. -/
  increasing : ∀ i j handle handle', i < j → handle? rs i = some handle → handle? rs j = some handle' →
    handle < handle'
  size : ∀ j ≤ rs.length, (before rs j).size = (held rs j).length
  room : ∀ j ≤ rs.length, (before rs j).size ≤ 65
  /-- A listener is refused when there is no room for it. -/
  refused : ∀ j channel name key message, rs[j]? = some (.add channel name key message) →
    (handle? rs j = none ↔ (before rs j).size = 65)
  unchanged : ∀ j channel name key message, rs[j]? = some (.add channel name key message) →
    handle? rs j = none → before rs (j + 1) = before rs j
  found : ∀ j r handle, rs[j]? = some r → (r = .remove handle ∨ ∃ b, r = .setActive handle b) →
    answer? rs j = some (.found ((held rs j).any (·.2 = handle)))
  /-- Those hear something that are there, active, and let it through. -/
  heard : ∀ j channel name key message, rs[j]? = some (.hear channel name key message) →
    ∃ handles, answer? rs j = some (.heard handles) ∧ handles.Pairwise (· < ·) ∧
      ∀ handle, handle ∈ handles ↔ ∃ i name' key' message', (i, handle) ∈ held rs j ∧
        rs[i]? = some (.add channel name' key' message') ∧ active rs i j handle = true ∧
        (name' = "" ∨ name' = name) ∧
        (Key.normalize key' = Key.null ∨ Key.normalize key' = Key.normalize key) ∧
        (message' = "" ∨ message' = message)

end Run

section Serve

variable (t : Listeners)

def newcomer? (r : ListenerRequest) : Option (Int32 × Listener) :=
  if limit ≤ t.size then none else r.listener?.map (t.next, ·)

theorem entries_serve (r : ListenerRequest) :
    (t.serve r).2.entries = t.entries.filterMap r.keep ++ (t.newcomer? r).toList := by
  cases r with
  | add channel name key message =>
    have hk : (ListenerRequest.add channel name key message).keep = some := rfl
    rw [hk, List.filterMap_some]
    by_cases h : limit ≤ t.size <;> simp [serve, add?, newcomer?, ListenerRequest.listener?, h]
  | remove handle =>
    have hk : (ListenerRequest.remove handle).keep = Option.guard (·.1 ≠ handle) := by
      funext x
      by_cases h : x.1 = handle
      · simp [ListenerRequest.keep, ListenerRequest.drops, Option.guard, h]
      · simp [ListenerRequest.keep, ListenerRequest.drops, ListenerRequest.activity?, Option.guard, h,
          Ne.symm h]
    rw [hk, List.filterMap_eq_filter]
    simp [serve, remove, newcomer?, ListenerRequest.listener?]
  | setActive handle active =>
    have hk : (ListenerRequest.setActive handle active).keep =
        some ∘ fun x => (x.1, if x.1 = handle then { x.2 with active := active } else x.2) := by
      funext x
      by_cases h : x.1 = handle
      · simp [ListenerRequest.keep, ListenerRequest.drops, ListenerRequest.activity?, h]
      · simp [ListenerRequest.keep, ListenerRequest.drops, ListenerRequest.activity?, h, Ne.symm h]
    rw [hk, List.filterMap_eq_map]
    simp [serve, setActive, newcomer?, ListenerRequest.listener?]
  | clear =>
    have hk : ListenerRequest.clear.keep = fun _ => none := rfl
    rw [hk]
    simp [serve, clear, newcomer?, ListenerRequest.listener?]
  | hear channel name key message =>
    have hk : (ListenerRequest.hear channel name key message).keep = some := rfl
    rw [hk, List.filterMap_some]
    simp [serve, newcomer?, ListenerRequest.listener?]

theorem next_serve (r : ListenerRequest) :
    (t.serve r).2.next = if (t.newcomer? r).isSome then t.next + 1 else t.next := by
  cases r with
  | add channel name key message =>
    by_cases h : limit ≤ t.size <;> simp [serve, add?, newcomer?, ListenerRequest.listener?, h]
  | _ => simp [serve, remove, setActive, clear, newcomer?, ListenerRequest.listener?]

theorem fst_serve (r : ListenerRequest) :
    (match (t.serve r).1 with
      | .added handle => handle
      | _ => none) = (t.newcomer? r).map (·.1) := by
  cases r with
  | add channel name key message =>
    by_cases h : limit ≤ t.size <;> simp [serve, add?, newcomer?, ListenerRequest.listener?, h]
  | _ => simp [serve, newcomer?, ListenerRequest.listener?]

end Serve

section Step

variable {rs : List ListenerRequest} {i j : Nat} {r : ListenerRequest}

theorem before_succ (hr : rs[j]? = some r) : before rs (j + 1) = ((before rs j).serve r).2 := by
  simp [before, after, List.take_add_one, hr]

theorem handle?_of_getElem? (hr : rs[j]? = some r) :
    handle? rs j = ((before rs j).newcomer? r).map (·.1) := by
  rw [← fst_serve]
  simp only [handle?, answer?, hr, Option.map_some]
  cases ((before rs j).serve r).1 <;> rfl

theorem between_succ (hij : i < j) (hr : rs[j]? = some r) :
    between rs i (j + 1) = between rs i j ++ [r] := by
  have hj : j < rs.length := (List.getElem?_eq_some_iff.1 hr).1
  rw [between, between, List.take_add_one, hr, Option.toList_some, List.drop_append_of_le_length]
  simp only [List.length_take]
  omega

theorem between_self (rs : List ListenerRequest) (j : Nat) : between rs j (j + 1) = [] := by
  simp [between]

theorem kept?_succ (hij : i < j) (hr : rs[j]? = some r) :
    kept? rs i (j + 1) = (kept? rs i j).filter (!r.drops ·) := by
  rw [kept?, between_succ hij hr, kept?]
  cases handle? rs i with
  | none => rfl
  | some handle =>
    by_cases h : (between rs i j).any (·.drops handle) <;> by_cases h' : r.drops handle <;>
      simp [List.any_append, Option.filter, h, h']

theorem active_succ (hij : i < j) (hr : rs[j]? = some r) (handle : Int32) :
    active rs i (j + 1) handle = (r.activity? handle).getD (active rs i j handle) := by
  rw [active, between_succ hij hr, List.filterMap_append]
  cases h : r.activity? handle with
  | none => simp [active, h]
  | some b => simp [h]

def record? (rs : List ListenerRequest) (i j : Nat) : Option (Int32 × Listener) :=
  (kept? rs i j).bind fun handle =>
    (rs[i]?.bind (·.listener?)).map fun l => (handle, { l with active := active rs i j handle })

theorem record?_succ (hij : i < j) (hr : rs[j]? = some r) :
    record? rs i (j + 1) = (record? rs i j).bind r.keep := by
  simp only [record?, kept?_succ hij hr, active_succ hij hr]
  cases kept? rs i j with
  | none => rfl
  | some handle =>
    cases rs[i]?.bind (·.listener?) with
    | none => by_cases h : r.drops handle <;> simp [Option.filter, h]
    | some l => by_cases h : r.drops handle <;> simp [Option.filter, ListenerRequest.keep, h]

theorem record?_self (hr : rs[j]? = some r) : record? rs j (j + 1) = (before rs j).newcomer? r := by
  have hk : kept? rs j (j + 1) = handle? rs j := by
    rw [kept?, between_self]
    cases handle? rs j <;> rfl
  have ha (handle : Int32) : active rs j (j + 1) handle = true := by simp [active, between_self]
  simp only [record?, hk, handle?_of_getElem? hr, hr, ha, newcomer?]
  cases r <;> by_cases h : limit ≤ (before rs j).size <;> simp [ListenerRequest.listener?, h]

theorem entries_before (hj : j ≤ rs.length) :
    (before rs j).entries = (List.range j).filterMap (record? rs · j) := by
  induction j with
  | zero => rfl
  | succ j ih =>
    have hr : rs[j]? = some rs[j] := List.getElem?_eq_getElem hj
    rw [before_succ hr, entries_serve, ih (Nat.le_of_succ_le hj), List.filterMap_filterMap,
      List.range_succ, List.filterMap_append, ← record?_self hr]
    have hold : (List.range j).filterMap (fun i => (record? rs i j).bind rs[j].keep) =
        (List.range j).filterMap (record? rs · (j + 1)) :=
      List.filterMap_congr fun i hi => (record?_succ (List.mem_range.1 hi) hr).symm
    rw [hold]
    cases h : record? rs j (j + 1) <;> simp [h]

end Step

section Handles

variable {rs : List ListenerRequest} {i j : Nat} {handle : Int32}

theorem exists_of_handle? (h : handle? rs j = some handle) :
    ∃ r l, rs[j]? = some r ∧ r.listener? = some l ∧ (before rs j).next = handle := by
  cases hr : rs[j]? with
  | none => simp [handle?, answer?, hr] at h
  | some r =>
    rw [handle?_of_getElem? hr, newcomer?] at h
    split at h
    · cases h
    · cases hl : r.listener? with
      | none => simp [hl] at h
      | some l => exact ⟨r, l, rfl, hl, by simpa [hl] using h⟩

theorem added_succ (rs : List ListenerRequest) (j : Nat) :
    added rs (j + 1) = added rs j + if (handle? rs j).isSome then 1 else 0 := by
  simp [added, List.range_succ, List.countP_append, List.countP_singleton]

theorem added_mono (rs : List ListenerRequest) (h : i ≤ j) : added rs i ≤ added rs j :=
  (List.range_sublist.2 h).countP_le

theorem added_lt (hi : (handle? rs i).isSome) (hij : i < j) : added rs i < added rs j := by
  have h := added_succ rs i
  rw [if_pos hi] at h
  have := added_mono rs (show i + 1 ≤ j from hij)
  omega

theorem next_before (hj : j ≤ rs.length) : (before rs j).next = Int32.ofNat (added rs j + 1) := by
  induction j with
  | zero => rfl
  | succ j ih =>
    have hr : rs[j]? = some rs[j] := List.getElem?_eq_getElem hj
    rw [before_succ hr, next_serve, ih (Nat.le_of_succ_le hj), added_succ, handle?_of_getElem? hr,
      Option.isSome_map]
    split <;> simp [Int32.ofNat_add]

theorem handle_eq (h : handle? rs j = some handle) :
    j < rs.length ∧ handle = Int32.ofNat (added rs j + 1) := by
  obtain ⟨r, l, hr, -, rfl⟩ := exists_of_handle? h
  have hj := (List.getElem?_eq_some_iff.1 hr).1
  exact ⟨hj, next_before (Nat.le_of_lt hj)⟩

theorem toInt_handle (hn : added rs rs.length < Nat.pow 2 31 - 1) (h : handle? rs j = some handle) :
    handle.toInt = added rs j + 1 := by
  have hs : (handle? rs j).isSome := by rw [h]; rfl
  obtain ⟨hj, rfl⟩ := handle_eq h
  have hlt := added_lt hs hj
  have hp : Nat.pow 2 31 = 2147483648 := rfl
  rw [Int32.toInt_ofNat_of_lt (by omega)]
  rfl

theorem handle_lt (hn : added rs rs.length < Nat.pow 2 31 - 1) {handle' : Int32} (hij : i < j)
    (h : handle? rs i = some handle) (h' : handle? rs j = some handle') : handle < handle' := by
  have hs : (handle? rs i).isSome := by rw [h]; rfl
  have hlt := added_lt hs hij
  rw [Int32.lt_iff_toInt_lt, toInt_handle hn h, toInt_handle hn h']
  omega

theorem handle?_of_kept? (h : kept? rs i j = some handle) : handle? rs i = some handle :=
  (Option.filter_eq_some_iff.1 h).1

theorem mem_held : (i, handle) ∈ held rs j ↔ i < j ∧ kept? rs i j = some handle := by
  simp [held]

theorem mem_entries (hj : j ≤ rs.length) {l : Listener} :
    (handle, l) ∈ (before rs j).entries ↔ ∃ i channel name key message, (i, handle) ∈ held rs j ∧
      rs[i]? = some (.add channel name key message) ∧
      l = ⟨channel, name, Key.normalize key, message, active rs i j handle⟩ := by
  rw [entries_before hj, List.mem_filterMap]
  constructor
  · rintro ⟨i, hi, h⟩
    obtain ⟨handle', hk, h⟩ := Option.bind_eq_some_iff.1 h
    obtain ⟨r, l', hr, hl, -⟩ := exists_of_handle? (handle?_of_kept? hk)
    obtain ⟨rfl, rfl⟩ : handle' = handle ∧ { l' with active := active rs i j handle' } = l := by
      simpa [hr, hl] using h
    cases r with
    | add channel name key message =>
      cases hl
      exact ⟨i, channel, name, key, message, mem_held.2 ⟨List.mem_range.1 hi, hk⟩, hr, rfl⟩
    | _ => cases hl
  · rintro ⟨i, channel, name, key, message, hi, hr, rfl⟩
    obtain ⟨hij, hk⟩ := mem_held.1 hi
    exact ⟨i, List.mem_range.2 hij, by simp [record?, hk, hr, ListenerRequest.listener?]⟩

theorem handles_before (hj : j ≤ rs.length) :
    (before rs j).entries.map (·.1) = (held rs j).map (·.2) := by
  rw [entries_before hj, held, List.map_filterMap, List.map_filterMap]
  refine List.filterMap_congr fun i _ => ?_
  cases hk : kept? rs i j with
  | none => simp [record?, hk]
  | some handle =>
    obtain ⟨r, l, hr, hl, -⟩ := exists_of_handle? (handle?_of_kept? hk)
    simp [record?, hk, hr, hl]

theorem size_before (hj : j ≤ rs.length) : (before rs j).size = (held rs j).length := by
  have h := congrArg List.length (handles_before hj)
  rw [size]
  simpa using h

theorem size_le (hj : j ≤ rs.length) : (before rs j).size ≤ limit := by
  induction j with
  | zero => exact Nat.zero_le _
  | succ j ih =>
    have hr : rs[j]? = some rs[j] := List.getElem?_eq_getElem hj
    have hs := ih (Nat.le_of_succ_le hj)
    rw [before_succ hr, size, entries_serve, List.length_append]
    have hk : ((before rs j).entries.filterMap rs[j].keep).length ≤ (before rs j).size :=
      List.length_filterMap_le _ _
    rw [newcomer?]
    split
    · simpa using Nat.le_trans hk hs
    · cases rs[j].listener? <;> simp <;> omega

theorem pairwise_before (hn : added rs rs.length < Nat.pow 2 31 - 1) (hj : j ≤ rs.length) :
    ((before rs j).entries.map (·.1)).Pairwise (· < ·) := by
  have hh : (before rs j).entries.map (·.1) = (List.range j).filterMap (kept? rs · j) := by
    rw [handles_before hj, held, List.map_filterMap]
    exact List.filterMap_congr fun i _ => by cases kept? rs i j <;> rfl
  rw [hh, List.pairwise_filterMap]
  exact List.pairwise_lt_range.imp fun hi handle h handle' h' =>
    handle_lt hn hi (handle?_of_kept? h) (handle?_of_kept? h')

theorem contains_before (hj : j ≤ rs.length) :
    (before rs j).contains handle = (held rs j).any (·.2 = handle) := by
  have h := congrArg (List.any · (· = handle)) (handles_before hj)
  rwa [List.any_map, List.any_map] at h

theorem accepts_iff {l : Listener} {channel : Int32} {name key message : String} :
    l.accepts channel name key message = true ↔ l.active = true ∧ l.channel = channel ∧
      (l.name = "" ∨ l.name = name) ∧ (l.key = Key.null ∨ l.key = Key.normalize key) ∧
      (l.message = "" ∨ l.message = message) := by
  simp [Listener.accepts, and_assoc]

theorem mem_matching (hj : j ≤ rs.length) {channel : Int32} {name key message : String} :
    handle ∈ (before rs j).matching channel name key message ↔
      ∃ i name' key' message', (i, handle) ∈ held rs j ∧
        rs[i]? = some (.add channel name' key' message') ∧ active rs i j handle = true ∧
        (name' = "" ∨ name' = name) ∧
        (Key.normalize key' = Key.null ∨ Key.normalize key' = Key.normalize key) ∧
        (message' = "" ∨ message' = message) := by
  have hm : handle ∈ (before rs j).matching channel name key message ↔
      ∃ l : Listener, (handle, l) ∈ (before rs j).entries ∧ l.accepts channel name key message := by
    simp [matching]
  rw [hm]
  constructor
  · rintro ⟨l, hl, ha⟩
    obtain ⟨i, channel', name', key', message', hi, hr, rfl⟩ := (mem_entries hj).1 hl
    obtain ⟨hactive, rfl, hfilters⟩ := accepts_iff.1 ha
    exact ⟨i, name', key', message', hi, hr, hactive, hfilters⟩
  · rintro ⟨i, name', key', message', hi, hr, ha, hfilters⟩
    exact ⟨_, (mem_entries hj).2 ⟨i, channel, name', key', message', hi, hr, rfl⟩,
      accepts_iff.2 ⟨ha, rfl, hfilters⟩⟩

end Handles

theorem account (rs : List ListenerRequest) (hn : added rs rs.length < Nat.pow 2 31 - 1) : Account rs where
  positive i handle h := by
    rw [Int32.lt_iff_toInt_lt, toInt_handle hn h]
    simp
  increasing i j handle handle' hij h h' := handle_lt hn hij h h'
  size j hj := size_before hj
  room j hj := size_le hj
  refused j channel name key message hr := by
    have hs := size_le (Nat.le_of_lt (List.getElem?_eq_some_iff.1 hr).1)
    rw [handle?_of_getElem? hr, newcomer?]
    split <;> simp [ListenerRequest.listener?, limit] at * <;> omega
  unchanged j channel name key message hr h := by
    rw [handle?_of_getElem? hr, newcomer?] at h
    rw [before_succ hr]
    split at h
    · simp [serve, add?, *]
    · simp [ListenerRequest.listener?] at h
  found j r handle hr h := by
    rw [← contains_before (Nat.le_of_lt (List.getElem?_eq_some_iff.1 hr).1), answer?, hr]
    obtain rfl | ⟨b, rfl⟩ := h <;> rfl
  heard j channel name key message hr := by
    have hj := Nat.le_of_lt (List.getElem?_eq_some_iff.1 hr).1
    refine ⟨(before rs j).matching channel name key message, by simp [answer?, hr, serve], ?_, ?_⟩
    · exact (pairwise_before hn hj).sublist (List.filter_sublist.map _)
    · exact fun handle => mem_matching hj

theorem account_of_five :
    added [.add 0 "" "" "", .add 0 "" "" "", .setActive 1 false, .remove 2, .hear 0 "" "" "hi"] 5 <
        Nat.pow 2 31 - 1 ∧
      Account [.add 0 "" "" "", .add 0 "" "" "", .setActive 1 false, .remove 2, .hear 0 "" "" "hi"] :=
  have h : added [.add 0 "" "" "", .add 0 "" "" "", .setActive 1 false, .remove 2,
      .hear 0 "" "" "hi"] 5 < Nat.pow 2 31 - 1 := by decide
  ⟨h, account _ h⟩

end Listeners

end PrimScript
