import PrimScript.Proofs.Engine.Course
import PrimScript.Proofs.Eval.Run
import PrimScript.Proofs.World.Told

/-! Chat that is heard.  Each listener that accepts it is owed an event; the first of them get theirs, as long
as the queue has room, and each one behind them is reported as an overflow.  The count that the caller gets is
that of the listeners, so it is the number of events queued exactly when none was left over. -/

namespace PrimScript

def EventQueue.room (q : EventQueue) : Nat := q.capacity - q.normal.length

def EventQueue.refusal (q : EventQueue) (e : Event) : Refusal := ⟨e, .full e.kind q.capacity⟩

def EventQueue.overflow (q : EventQueue) (e : Event) : Diagnostic :=
  ⟨.queueOverflow, (EventError.full e.kind q.capacity).message⟩

namespace Engine

/-- Events were brought to the open queue, one after the other: those that fit wait behind the others, those
that do not are refused and reported, and nothing else has changed. -/
structure Offered (es : List Event) (g g' : Engine) : Prop where
  normal : g'.world.queue.normal = g.world.queue.normal ++ es.take g.world.queue.room
  refused : g'.world.queue.refused =
    g.world.queue.refused ++ (es.drop g.world.queue.room).map g.world.queue.refusal
  brought : ∃ ps, g'.world.pushes.toList = g.world.pushes.toList ++ ps ∧
    ps.map Push.offer = es.map (Producer.outside, ·)
  diagnostics : g'.world.diagnostics.toList =
    g.world.diagnostics.toList ++ (es.drop g.world.queue.room).map g.world.queue.overflow
  aside : ∃ normal past refusals diagnostics pushes, g' = g.mapWorld fun w => { w with
    queue := { w.queue with normal := normal, past := past, refusals := refusals }
    diagnostics := diagnostics
    pushes := pushes }

namespace Offered

variable {g g' g'' : Engine} {e : Event} {es es' : List Event}

theorem refl (g : Engine) : Offered [] g g where
  normal := by simp
  refused := by simp
  brought := ⟨[], by simp⟩
  diagnostics := by simp
  aside := ⟨_, _, _, _, _, rfl⟩

theorem capacity (h : Offered es g g') : g'.world.queue.capacity = g.world.queue.capacity := by
  obtain ⟨_, _, _, _, _, rfl⟩ := h.aside
  rfl

theorem closed (h : Offered es g g') : g'.world.queue.closed = g.world.queue.closed := by
  obtain ⟨_, _, _, _, _, rfl⟩ := h.aside
  rfl

theorem high (h : Offered es g g') : g'.world.queue.high = g.world.queue.high := by
  obtain ⟨_, _, _, _, _, rfl⟩ := h.aside
  rfl

theorem overflow (h : Offered es g g') : g'.world.queue.overflow = g.world.queue.overflow := by
  funext e
  rw [EventQueue.overflow, EventQueue.overflow, h.capacity]

theorem refusal (h : Offered es g g') : g'.world.queue.refusal = g.world.queue.refusal := by
  funext e
  rw [EventQueue.refusal, EventQueue.refusal, h.capacity]

theorem room (h : Offered es g g') : g'.world.queue.room = g.world.queue.room - es.length := by
  rw [EventQueue.room, h.capacity, h.normal, List.length_append, List.length_take, EventQueue.room]
  omega

theorem size_eq_iff (h : Offered es g g') :
    g'.world.queue.size = g.world.queue.size + es.length ↔ es.length ≤ g.world.queue.room := by
  rw [EventQueue.size, EventQueue.size, h.high, h.normal, List.length_append, List.length_take]
  omega

theorem trans (h : Offered es g g') (h' : Offered es' g' g'') : Offered (es ++ es') g g'' where
  normal := by
    rw [h'.normal, h.normal, h.room, List.append_assoc, List.take_append]
  refused := by
    rw [h'.refused, h.refused, h.refusal, h.room, List.append_assoc, List.drop_append, List.map_append]
  brought := by
    obtain ⟨ps, hp, hps⟩ := h.brought
    obtain ⟨qs, hq, hqs⟩ := h'.brought
    exact ⟨ps ++ qs, by rw [hq, hp, List.append_assoc], by rw [List.map_append, List.map_append, hps, hqs]⟩
  diagnostics := by
    rw [h'.diagnostics, h.diagnostics, h.overflow, h.room, List.append_assoc, List.drop_append,
      List.map_append]
  aside := by
    obtain ⟨_, _, _, _, _, rfl⟩ := h.aside
    obtain ⟨normal, past, refusals, diagnostics, pushes, rfl⟩ := h'.aside
    exact ⟨normal, past, refusals, diagnostics, pushes, rfl⟩

end Offered

variable {g g' : Engine} {e : Event} {es : List Event}

theorem inject_of_receive {q : EventQueue} (hq : g.world.queue.receive e = .ok q) :
    g.inject e = (.ok (), g.mapWorld (·.accept .outside e q)) := by
  rw [inject, World.push_of_receive hq]
  rfl

theorem inject_of_full {kind : EventKind} {n : Nat} (hq : g.world.queue.receive e = .error (.full kind n)) :
    g.inject e = (.ok (), g.mapWorld fun w =>
      (w.refuse .outside e (.full kind n)).report .queueOverflow (EventError.full kind n).message) := by
  rw [inject, World.push_of_receive_error hq]
  rfl

theorem offered_inject (hc : g.world.queue.closed = false) (he : e.high = false) :
    (g.inject e).1 = .ok () ∧ Offered [e] g (g.inject e).2 := by
  by_cases hr : g.world.queue.normal.length < g.world.queue.capacity
  · obtain ⟨n, hn⟩ : ∃ n, g.world.queue.room = n + 1 :=
      Nat.exists_eq_succ_of_ne_zero (Nat.sub_ne_zero_of_lt hr)
    obtain ⟨q, hq, hp⟩ : ∃ q, q = { g.world.queue with
        normal := g.world.queue.normal ++ [e], past := g.world.queue.past.push (.accepted e) } ∧
        g.world.queue.receive e = .ok q := by
      simp [EventQueue.receive, hc, he, hr]
    rw [inject_of_receive hp, hq]
    refine ⟨rfl, ?_, ?_, ⟨_, History.toList_push _ _, rfl⟩, ?_, _, _, _, _, _, rfl⟩
    · simp [hn, World.accept]
    · simp [hn, World.accept, EventQueue.refused]
    · simp [hn, World.accept]
  · have hn : g.world.queue.room = 0 := Nat.sub_eq_zero_of_le (Nat.le_of_not_lt hr)
    have hp : g.world.queue.receive e = .error (.full e.kind g.world.queue.capacity) := by
      simp [EventQueue.receive, hc, he, Nat.le_of_not_lt hr]
    rw [inject_of_full hp]
    refine ⟨rfl, ?_, ?_, ⟨_, History.toList_push _ _, rfl⟩, ?_, _, _, _, _, _, rfl⟩
    · simp [hn, World.refuse, World.report]
    · rw [hn]
      exact EventQueue.refused_refuse _ _ _
    · simp [hn, World.refuse, World.report, EventQueue.overflow]

theorem offered_injectAll (hc : g.world.queue.closed = false) (he : ∀ e ∈ es, e.high = false) :
    (g.injectAll es).1 = .ok () ∧ Offered es g (g.injectAll es).2 := by
  induction es generalizing g with
  | nil => exact ⟨rfl, .refl g⟩
  | cons e es ih =>
    rw [List.forall_mem_cons] at he
    obtain ⟨hok, ho⟩ := offered_inject hc he.1
    have hi : g.inject e = (.ok (), (g.inject e).2) := Prod.ext hok rfl
    obtain ⟨hok', ho'⟩ := ih (g := (g.inject e).2) (by rw [ho.closed, hc]) he.2
    rw [injectAll, hi]
    exact ⟨hok', ho.trans ho'⟩

theorem injectAll_of_closed (hc : g.world.queue.closed = true) (e : Event) (es : List Event) :
    (g.injectAll (e :: es)).1 = .error .notRunning ∧
      (g.injectAll (e :: es)).2.world.queue = g.world.queue.refuse e .closed := by
  have hp : g.world.queue.receive e = .error .closed := by simp [EventQueue.receive, hc]
  have hi : g.inject e = (.error .notRunning, g.mapWorld (·.refuse .outside e .closed)) := by
    rw [inject, World.push_of_receive_error hp]
    rfl
  rw [injectAll, hi]
  exact ⟨rfl, rfl⟩

/-- The events for the listeners that accept what is said, by their handles. -/
def owed (g : Engine) (channel : Int32) (name key message : String) : List Event :=
  (g.world.listeners.matching channel name key message).map fun _ =>
    Course.heard channel name key message

theorem length_owed (g : Engine) (channel : Int32) (name key message : String) :
    (g.owed channel name key message).length =
      (g.world.listeners.matching channel name key message).length := List.length_map _

theorem hear_eq_injectAll (g : Engine) (channel : Int32) (name key message : String) :
    g.hear channel name key message =
      ((g.injectAll (g.owed channel name key message)).1.map fun _ =>
        (g.world.listeners.matching channel name key message).length,
        (g.injectAll (g.owed channel name key message)).2) := by
  unfold hear owed Course.heard
  dsimp only
  split
  · next h => rw [h]; rfl
  · next h => rw [h]; rfl

section Hear

variable (channel : Int32) (name key message : String)

theorem hear_of_open (hc : g.world.queue.closed = false) :
    (g.hear channel name key message).1 =
        .ok (g.world.listeners.matching channel name key message).length ∧
      Offered (g.owed channel name key message) g (g.hear channel name key message).2 := by
  have hl : ∀ e ∈ g.owed channel name key message, e.high = false := by
    intro e he
    obtain ⟨-, -, rfl⟩ := List.mem_map.1 he
    rfl
  obtain ⟨hok, ho⟩ := offered_injectAll hc hl
  rw [hear_eq_injectAll, hok]
  exact ⟨rfl, ho⟩

theorem hear_of_closed (hc : g.world.queue.closed = true) :
    let count := (g.world.listeners.matching channel name key message).length
    (g.hear channel name key message).1 = (if count = 0 then .ok 0 else .error .notRunning) ∧
      (g.hear channel name key message).2.world.queue = (if count = 0 then g.world.queue
        else g.world.queue.refuse (Course.heard channel name key message) .closed) := by
  rw [hear_eq_injectAll, owed]
  cases g.world.listeners.matching channel name key message with
  | nil => exact ⟨rfl, rfl⟩
  | cons handle handles =>
    obtain ⟨herror, hq⟩ := injectAll_of_closed hc (Course.heard channel name key message)
      (handles.map fun _ => Course.heard channel name key message)
    rw [List.map_cons, herror]
    exact ⟨rfl, hq⟩

end Hear

/-- While the queue is open, hearing something succeeds and counts the listeners that accept it.  Their
events are queued in the order of the listeners, as many as there is room for, and each of the others is
reported; so the count is the number of events queued just when all of them fit.  With a closed queue it
fails, unless no listener accepts, and the first event is refused.  Listeners whose handles increase are served by
increasing handles. -/
theorem hear_counts_matching (g : Engine) (channel : Int32) (name key message : String) :
    let count := (g.world.listeners.matching channel name key message).length
    let answer := g.hear channel name key message
    (g.world.queue.closed = false →
      answer.1 = .ok count ∧ Offered (g.owed channel name key message) g answer.2 ∧
      (answer.2.world.queue.size = g.world.queue.size + count ↔ count ≤ g.world.queue.room)) ∧
    (g.world.queue.closed = true →
      answer.1 = (if count = 0 then .ok 0 else .error .notRunning) ∧
      answer.2.world.queue = (if count = 0 then g.world.queue
        else g.world.queue.refuse (Course.heard channel name key message) .closed)) ∧
    ((g.world.listeners.entries.map (·.1)).Pairwise (· < ·) →
      (g.world.listeners.matching channel name key message).Pairwise (· < ·)) := by
  refine ⟨fun hc => ?_, fun hc => ?_, fun h => h.sublist (List.filter_sublist.map _)⟩
  · obtain ⟨hok, ho⟩ := hear_of_open channel name key message hc
    have hs := ho.size_eq_iff
    rw [length_owed] at hs
    exact ⟨hok, ho, hs⟩
  · exact hear_of_closed channel name key message hc

end Engine

section Eavesdropper

def Expr.hark : Expr :=
  .call "llListen" [.literal (.integer 5), .literal (.string ""), .literal (.string ""),
    .literal (.string "")]

def Handler.hark : Handler := ⟨[], [.expr .hark]⟩

def Script.eavesdropper : Script := ⟨[], [], [("default", [("state_entry", .hark)])]⟩

def Settings.roomless : Settings := { Settings.default with queueCapacity := 0 }

def Listeners.lone : Listeners := ⟨[(1, ⟨5, "", Key.null, "", true⟩)], 2⟩

theorem Listeners.matching_lone : lone.matching 5 "Bob" Key.null "hi" = [1] := by decide

theorem Library.run_listen {w : World} (h : w.listeners = .empty) :
    listen.run ⟨"llListen", [.integer 5, .string "", .ofKey "", .string ""], []⟩ w =
      (.integer 1, { w with listeners := .lone }) := by
  simp only [listen, h]
  rfl

theorem Course.exists_reachable_listening (P : Event → Prop) :
    ∃ c q, Reachable P .eavesdropper .roomless (.plain []) c ∧
      (initial .eavesdropper .roomless (.plain [])).engine.start.2.world.queue.pop? = some (.entry, q) ∧
      c.world =
        { (initial .eavesdropper .roomless (.plain [])).engine.start.2.world.setQueue q with
          listeners := .lone } := by
  obtain ⟨q, hq, hc⟩ := exists_reachable_entry P .eavesdropper rfl .roomless (.plain [])
  obtain ⟨m, hm, hw, -⟩ := hc.call (h := .hark) rfl rfl rfl rfl
    (fun _ => .cons rfl rfl rfl <| .cons rfl rfl rfl <| .cons rfl rfl rfl <| .cons rfl rfl rfl .nil) rfl
    (Library.run_listen rfl)
  exact ⟨_, q, hm, hq, hw⟩

/-- A listener is counted, and no event is queued. -/
theorem Course.hear_roomless :
    ∃ c, Reachable (fun _ => False) .eavesdropper .roomless (.plain []) c ∧
      (c.engine.hear 5 "Bob" Key.null "hi").1 = .ok 1 ∧
      (c.engine.hear 5 "Bob" Key.null "hi").2.world.queue.toList = [] := by
  obtain ⟨c, q, hc, hq, hw⟩ := exists_reachable_listening fun _ => False
  have hm : c.engine.world.listeners.matching 5 "Bob" Key.null "hi" = [1] := by
    change c.world.listeners.matching 5 "Bob" Key.null "hi" = [1]
    rw [hw]
    exact Listeners.matching_lone
  obtain ⟨hclosed, hroom, hpending⟩ : c.engine.world.queue.closed = false ∧
      c.engine.world.queue.room = 0 ∧ c.engine.world.queue.toList = [] := by
    change c.world.queue.closed = false ∧ c.world.queue.room = 0 ∧ c.world.queue.toList = []
    rw [hw]
    cases hq
    exact ⟨rfl, rfl, rfl⟩
  obtain ⟨hok, ho⟩ := Engine.hear_of_open 5 "Bob" Key.null "hi" hclosed
  refine ⟨c, hc, by rw [hok, hm]; rfl, ?_⟩
  rw [EventQueue.toList, ho.high, ho.normal, hroom, List.take_zero, List.append_nil]
  exact hpending

end Eavesdropper

end PrimScript
