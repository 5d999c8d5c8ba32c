import PrimScript.Proofs.Engine.Course
import PrimScript.Proofs.Eval.Stable
import PrimScript.Proofs.Library.Within
import PrimScript.Proofs.World.Told

/-! What is told of the events that are brought to the queue, by a running script and along a course: every step
only adds to those events and to what was reported of them, and what the library has brought is what was called
for.  A step that ends the script reports that, and nothing else does. -/

namespace PrimScript

def Called.brings (r : Called) : List (Producer × Event) :=
  if r.call.name = "llSensor" then
    [(.sweep, (sweepEvent (r.world.scan (Library.queryOf r.call) r.world.vantage)).askedAt
      r.world.entered)]
  else if r.call.name = "llRequestPermissions" then
    [(.function, .ofKind .runTimePermissions [.integer (r.call.integer 1)])]
  else if r.call.name = "llMessageLinked" ∧ r.call.integer 0 ∈ [-1, -4, 0] then
    [(.function, .ofKind .linkMessage [.integer 0, .integer (r.call.integer 1),
      .string (r.call.string 2), .ofKey (r.call.string 3)])]
  else []

section

open World

namespace Library

theorem bears_told : Bears (Told []) where
  trans := .trans
  alike := .alike
  setTimer h := .setTimer h
  repeatSweep h := .repeatSweep h
  cancelSweep := .cancelSweep

theorem told_sensor (c : Call) (w : World) (hn : c.name = sensor.name) :
    Told (Called.brings ⟨w, c, (sensor.run c w).1⟩) w (sensor.run c w).2 := by
  have hb : Called.brings ⟨w, c, (sensor.run c w).1⟩ =
      [(.sweep, (sweepEvent (w.scan (queryOf c) w.vantage)).askedAt w.entered)] := if_pos hn
  rw [hb]
  unfold sensor
  dsimp only
  generalize (sweepEvent (w.scan (queryOf c) w.vantage)).askedAt w.entered = e
  rcases w.push_cases .sweep e with ⟨q, hq, hp⟩ | ⟨x, hq, hp⟩
  · rw [hp]
    exact ⟨⟨_, .accept .sweep hq, rfl⟩, rfl⟩
  · rw [hp]
    refine ⟨⟨_, .refuse_report (fun kind n hx => ?_) rfl, rfl⟩, reported_report_of_ne _ (by simp) _⟩
    exact EventQueue.eq_of_receive_full (hx ▸ hq)

theorem told_requestPermissions (c : Call) (w : World) (hn : c.name = requestPermissions.name) :
    Told (Called.brings ⟨w, c, (requestPermissions.run c w).1⟩) w (requestPermissions.run c w).2 := by
  have hb : Called.brings ⟨w, c, (requestPermissions.run c w).1⟩ =
      [(.function, .ofKind .runTimePermissions [.integer (c.integer 1)])] := by
    simp [Called.brings, hn, requestPermissions]
  rw [hb]
  exact (bears_told.setPermissions w _).trans (.enqueue _ _)

theorem told_messageLinked (c : Call) (w : World) (hn : c.name = messageLinked.name) :
    Told (Called.brings ⟨w, c, (messageLinked.run c w).1⟩) w (messageLinked.run c w).2 := by
  have hr : reachesLink (c.integer 0) = true ↔ c.integer 0 ∈ [-1, -4, 0] := by
    simp [reachesLink, or_assoc]
  unfold messageLinked
  dsimp only
  split
  · next h => simpa [Called.brings, hn, messageLinked, hr.1 h] using Told.enqueue w _
  · next h =>
    have hm : c.integer 0 ∉ [-1, -4, 0] := mt hr.2 h
    simpa [Called.brings, hn, messageLinked, hm] using Told.refl w

theorem name_of_not_mem_bringing : ∀ f ∈ all, f ∈ bringing ∨ f.name ∉ bringing.map LibraryFunction.name := by
  have others : ∀ f ∈ speech ++ time ++ sensing.tail ++ self ++ math ++ texts ++ lists ++ extensions ++
      asking ++ (requests.drop 5).take 2, f.name ∉ bringing.map LibraryFunction.name := by decide +kernel
  have hall : all = speech ++ time ++ sensor :: sensing.tail ++ self ++ math ++ texts ++ lists ++
      (asking ++ requestPermissions :: ((requests.drop 5).take 2 ++ [messageLinked])) ++ extensions := rfl
  intro f hf
  simp only [hall, List.mem_append, List.mem_cons, List.not_mem_nil, or_false] at others hf
  have hb : f ∈ bringing ↔ f = sensor ∨ f = requestPermissions ∨ f = messageLinked := by
    simp [bringing]
  rw [hb]
  grind

theorem told_run {f : LibraryFunction} (hf : f ∈ all) {c : Call} (hn : c.name = f.name) (w : World) :
    Told (Called.brings ⟨w, c, (f.run c w).1⟩) w (f.run c w).2 := by
  rcases name_of_not_mem_bringing f hf with hb | hb
  · simp only [bringing, List.mem_cons, List.not_mem_nil, or_false] at hb
    rcases hb with rfl | rfl | rfl
    · exact told_sensor c w hn
    · exact told_requestPermissions c w hn
    · exact told_messageLinked c w hn
  · have hnone : Called.brings ⟨w, c, (f.run c w).1⟩ = [] := by
      rw [← hn] at hb
      simp only [bringing, List.map_cons, List.map_nil, List.mem_cons, List.not_mem_nil, or_false,
        not_or] at hb
      obtain ⟨h₁, h₂, h₃⟩ := hb
      exact (if_neg h₁).trans ((if_neg h₂).trans (if_neg fun h => h₃ h.1))
    rw [hnone]
    rcases within_others bears_told f hf with ha | hb' | hw
    · exact within_asking bears_told (fun _ _ _ _ _ => .same rfl rfl rfl) f ha c w
    · exact absurd (List.mem_map_of_mem hb') hb
    · exact hw c w

end Library

end

/-- What lies between two states of a machine is told: the library was called, and has brought what it was
called for. -/
def Machine.Told (m m' : Machine) : Prop :=
  ∃ rs, m'.called.toList = m.called.toList ++ rs ∧
    World.Told (rs.flatMap Called.brings) m.world m'.world

namespace Machine.Told

variable {m m' m'' : Machine}

theorem aside (hc : m'.called = m.called) (hw : World.Told [] m.world m'.world) : m.Told m' :=
  ⟨[], by rw [hc, List.append_nil], hw⟩

theorem refl (m : Machine) : m.Told m := aside rfl (.refl _)

theorem trans (h : m.Told m') (h' : m'.Told m'') : m.Told m'' := by
  obtain ⟨rs, hr, hw⟩ := h
  obtain ⟨rs', hr', hw'⟩ := h'
  refine ⟨rs ++ rs', by rw [hr', hr, List.append_assoc], ?_⟩
  rw [List.flatMap_append]
  exact hw.append hw'

theorem fatal (h : m.Told m') : m'.world.reported .fatal = m.world.reported .fatal := by
  obtain ⟨rs, -, hw⟩ := h
  exact hw.fatal

end Machine.Told

namespace Eval

open World

theorem told_worldAfter (f : LibraryFunction) (r : Reply × World) : Told [] r.2 (worldAfter f r) := by
  obtain ⟨reply, w⟩ := r
  cases reply with
  | value v => exact .refl w
  | pause span => exact .pause w span
  | invalid reason => exact .alike (.report w rfl _)
  | failed reason => exact .alike (.report w rfl _)
  | overlong => exact .refl w

theorem told_callLibrary {f : LibraryFunction} (hf : f ∈ Library.all) (args : List Value)
    (detected : List Entity) (m : Machine) : m.Told ((callLibrary f args detected).on m).2 := by
  rw [on_callLibrary_snd]
  refine ⟨[callOf f args detected m.world.meanwhile], History.toList_push _ _, ?_⟩
  have hr := (Library.told_run hf (c := ⟨f.name, args, detected⟩) rfl m.world.meanwhile).append
    (told_worldAfter f _)
  rw [List.append_nil] at hr
  rw [List.flatMap_singleton]
  exact (Told.meanwhile m.world).trans hr

theorem framed_told (m₀ : Machine) : Framed (fun m => m₀.Told m) fun _ => True where
  closed := .all
  warn _ hk hm := hm.trans (.aside rfl (.alike (.report _ hk _)))
  stated _ hm := hm.trans (.aside rfl (.refl _))
  capped hm := hm
  taken hm := hm.trans (.aside rfl (.refl _))
  slot _ _ := trivial
  declare _ _ _ hm _ := hm.trans (.aside rfl (.refl _))
  assign hm _ _ := ⟨trivial, hm.trans (.aside rfl (.refl _))⟩
  library hf _ _ := fun m hm => ⟨hm.trans (told_callLibrary hf _ _ m), fun _ _ => trivial⟩
  request _ hm := hm.trans (.aside rfl (.refl _))
  enter _ _ _ _ hm _ := hm.trans (.aside rfl (.refl _))
  leave hm := hm.trans (.aside rfl (.refl _))

end Eval

namespace Machine

theorem told_handle (script : Script) (h : Handler) (e : Event) (m : Machine) :
    m.Told (m.handle script h e).2 :=
  ((Eval.framed_told m).handle script h (fun _ _ => trivial) { m with requested := none }
    (.aside rfl (.refl _))).1

theorem told_bindGlobals (script : Script) (m : Machine) : m.Told (m.bindGlobals script).2 :=
  ((Eval.framed_told m).bindGlobals script _ { m with requested := none } (.aside rfl (.refl _))).1

end Machine

namespace World.Told

theorem announceEntry (w : World) : Told [] w w.announceEntry := bring w .entry rfl fun _ => rfl

theorem dropListeners (w : World) : Told [] w w.dropListeners := by
  unfold World.dropListeners
  split
  · exact same rfl rfl rfl
  · exact refl w

theorem endLoop (w : World) : Told [] w w.endLoop := same rfl rfl rfl

theorem shutDown (g : Engine) : Told [] g.world g.shutDown.world :=
  (setQueue (EventQueue.keeps_close _)).trans (quiet _)

end World.Told

namespace Course

/-- What lies between two courses is told, and the script was not ended but perhaps at last, after an
error. -/
inductive Told (c : Course) : Course → Prop
  | on {c' : Course} : c.engine.machine.Told c'.engine.machine →
    (c'.engine.status = .failed → c.engine.status = .failed) → Told c c'
  | ended {g : Engine} (e : EvalError) : c.engine.machine.Told g.machine → Told c ⟨g.fail e, .idle⟩

variable {P : Event → Prop} {script : Script} {settings : Settings} {around : Surroundings}
  {c c' : Course}

theorem Told.aside {phase : Phase} {w : World → World} (h : World.Told [] c.world (w c.world)) :
    Told c ⟨c.engine.mapWorld w, phase⟩ := .on (.aside rfl h) id

theorem Told.refl (c : Course) (phase : Phase) : Told c ⟨c.engine, phase⟩ := .aside (w := id) (.refl _)

theorem told_handle {g g' : Engine} {h : Handler} {e : Event} {r : Except Halt (Option String)}
    (hg : g.handle h e = (r, g')) :
    g.machine.Told g'.machine ∧ (g'.status = .failed → g.status = .failed) := by
  cases hg
  exact ⟨Machine.told_handle g.script h e g.machine, id⟩

theorem Told.of_handle {g g' : Engine} {h : Handler} {e : Event} {r : Except Halt (Option String)}
    (hg : g.handle h e = (r, g')) (phase phase' : Phase) : Told ⟨g, phase⟩ ⟨g', phase'⟩ :=
  .on (told_handle hg).1 (told_handle hg).2

theorem told_halt {g g' : Engine} (h : g.machine.Told g'.machine) (phase : Phase) (x : Halt) :
    Told ⟨g, phase⟩ ⟨g'.halt x, .idle⟩ := by
  cases x with
  | error e => exact .ended e h
  | overlong => exact .on (h.trans (.aside rfl (.endLoop _))) nofun

theorem Loop.told (h : Loop c c') : c.Told c' := by
  cases h with
  | pop hs hq => exact .aside (.setQueue (EventQueue.keeps_pop? hq))
  | unhandled => exact .refl _ _
  | handled hh hg => exact .of_handle hg _ _
  | asked hh hg => exact .of_handle hg _ _
  | halted hh hg => exact told_halt (told_handle hg).1 _ _
  | unknown => exact .ended _ (.refl _)
  | same => exact .refl _ _
  | other => exact .refl _ _
  | exiting => exact .refl _ _
  | exited hg => exact .of_handle hg _ _
  | exitHalted hg => exact told_halt (told_handle hg).1 _ _
  | clear => exact .aside (.setQueue (EventQueue.keeps_nextEpoch _))
  | cancelTimer => exact .aside (.cancelTimer _)
  | cancelSweep => exact .aside (.cancelSweep _)
  | dropListeners => exact .aside (.dropListeners _)
  | enter => exact .on (.aside rfl (.same rfl rfl rfl)) id
  | announce => exact .aside (.announceEntry _)

theorem told_start (g : Engine) : Told ⟨g, .idle⟩ ⟨g.start.2, .idle⟩ := by
  have hb := Machine.told_bindGlobals g.script g.machine
  have hs := g.starts_start
  generalize g.start = r at hs ⊢
  cases hs with
  | already => exact .refl _ _
  | @halted x m _ h =>
    rw [h] at hb
    have hw : g.machine.Told { g with machine := m }.machine := hb
    exact told_halt hw _ x
  | refused hc h =>
    rw [h] at hb
    exact .on (hb.trans (.aside rfl (.announceEntry _))) id
  | running _ h =>
    rw [h] at hb
    exact .on (hb.trans (.aside rfl ((World.Told.announceEntry _).trans (.same rfl rfl rfl)))) nofun

theorem Step.told (h : Step P c c') : c.Told c' := by
  cases h with
  | loop h => exact h.told
  | start g => exact told_start g
  | stop c =>
    refine .on (.aside rfl (.shutDown c.engine)) fun hs => ?_
    by_contra hc
    simp [Engine.shutDown, hc] at hs
  | ended => exact .aside (.endLoop _)
  | outside c => exact .aside (.undergo _ _)
  | foresee c => exact .aside (.same rfl rfl rfl)

theorem Told.tells (h : c.Told c') : ∃ rs ps,
    c'.engine.machine.called.toList = c.engine.machine.called.toList ++ rs ∧
      World.Tells ps c.world c'.world ∧ ps.filterMap Push.brought? = rs.flatMap Called.brings := by
  cases h with
  | on h =>
    obtain ⟨rs, hr, ⟨ps, hp, hb⟩, -⟩ := h
    exact ⟨rs, ps, hr, hp, hb⟩
  | @ended g e h =>
    obtain ⟨rs, hr, ⟨ps, hp, hb⟩, -⟩ := h
    have hf : World.Tells [] g.world (g.fail e).world :=
      .none rfl (EventQueue.keeps_close _) (World.reported_report_of_ne _ (by simp) _)
    exact ⟨rs, ps ++ [], hr, hp.trans hf, by rw [List.append_nil, hb]⟩

end Course

end PrimScript
