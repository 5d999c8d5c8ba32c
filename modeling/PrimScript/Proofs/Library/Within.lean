import PrimScript.Library.Catalog
import PrimScript.Proofs.Event.Catalog
import PrimScript.Proofs.World.Alike

/-! What the functions of the library do to the world.  A relation between worlds that a few actions
keep to is kept to by every function, except perhaps by those that ask for an answer. -/

namespace PrimScript

structure Event.Ordinary (e : Event) : Prop where
  high : e.high = false
  args : ∀ v ∈ e.args, v.WellFormed

def EventKind.isServed : EventKind → Bool
  | .timer => true
  | .sensor => true
  | .noSensor => true
  | _ => false

/-- An ordinary event that the world itself makes, as the catalog has it.  One that comes of a timer or a
sweep says when that was asked for. -/
structure Event.Own (e : Event) : Prop extends e.Ordinary where
  conforms : e.Conforms
  asked : e.kind.isServed → e.asked.isSome

theorem Event.own_ofKind {kind : EventKind} (hk : kind.isServed = false) {args : List Value}
    (hc : args.map Value.type = kind.params) (h : ∀ v ∈ args, v.WellFormed) :
    (Event.ofKind kind args).Own :=
  ⟨⟨rfl, h⟩, hc, fun hs => absurd hs (by simp [Event.ofKind, hk])⟩

theorem Event.own_askedAt {e : Event} (h : e.Ordinary) (hc : e.Conforms) (entered : History String) :
    (e.askedAt entered).Own := ⟨⟨h.high, h.args⟩, hc, fun _ => rfl⟩

theorem ordinary_sweepEvent (found : List Entity) : (sweepEvent found).Ordinary := by
  unfold sweepEvent
  split
  · exact ⟨rfl, by simp [Event.ofKind]⟩
  · exact ⟨rfl, by simp [Event.withDetected, Event.ofKind, Value.WellFormed]⟩

theorem Event.own_sweepEvent (found : List Entity) (entered : History String) :
    ((sweepEvent found).askedAt entered).Own :=
  own_askedAt (ordinary_sweepEvent found) (conforms_sweepEvent found) entered

namespace Library

open World LibraryFunction

structure Bears (Rel : World → World → Prop) : Prop where
  trans : ∀ {w w' w''}, Rel w w' → Rel w' w'' → Rel w w''
  alike : ∀ {w w'}, w.Alike w' → Rel w w'
  setTimer : ∀ {w w' seconds}, w.setTimer? seconds = some w' → Rel w w'
  repeatSweep : ∀ {w w' q v seconds}, w.repeatSweep? q v seconds = some w' → Rel w w'
  cancelSweep : ∀ w, Rel w w.cancelSweep

structure Hosts (Rel : World → World → Prop) : Prop extends Bears Rel where
  sweep : ∀ {w found q}, w.queue.receive ((sweepEvent found).askedAt w.entered) = .ok q →
    Rel w (w.accept .sweep ((sweepEvent found).askedAt w.entered) q)
  refused : ∀ {w found x}, w.queue.receive ((sweepEvent found).askedAt w.entered) = .error x →
    Rel w ((w.refuse .sweep ((sweepEvent found).askedAt w.entered) x).report .queueOverflow x.message)
  enqueue : ∀ w {e : Event}, e.Own → e.asked = none →
    e.kind = .runTimePermissions ∨ e.kind = .linkMessage → Rel w (w.enqueue .function e).2

def Within (Rel : World → World → Prop) (f : LibraryFunction) : Prop := ∀ c w, Rel w (f.run c w).2

def asking : List LibraryFunction :=
  [httpRequest, getNotecardLine, getNumberOfNotecardLines, requestAgentData]

def bringing : List LibraryFunction := [sensor, requestPermissions, messageLinked]

variable {Rel : World → World → Prop}

section Bearing

variable (h : Bears Rel)
include h

namespace Bears

theorem refl (w : World) : Rel w w := h.alike (.refl w)

theorem report (w : World) {kind : DiagnosticKind} (hk : kind.isFault) (message : String) :
    Rel w (w.report kind message) := h.alike (.report w hk message)

theorem say (w : World) (channel : Int32) (text : String) (volume : Volume) :
    Rel w (w.say channel text volume) := h.alike { Alike.refl w with }

theorem tell (w : World) (target : String) (channel : Int32) (text : String) :
    Rel w (w.tell target channel text) := h.alike { Alike.refl w with }

theorem setListeners (w : World) (t : Listeners) : Rel w { w with listeners := t } := h.alike { Alike.refl w with }

theorem setObject (w : World) (o : Object) : Rel w { w with object := o } := h.alike { Alike.refl w with }

theorem freshKey (w : World) : Rel w w.freshKey.2 :=
  h.alike { Alike.refl w with keysGiven := Nat.le_succ _ }

theorem setDrawn (w : World) (n : Nat) : Rel w { w with drawn := n } := h.alike { Alike.refl w with }

theorem setPermissions (w : World) (p : Permissions) : Rel w { w with permissions := p } :=
  h.alike { Alike.refl w with }

theorem resetTime (w : World) : Rel w (resetTime w) := h.alike { Alike.refl w with }

theorem linesOrTell (w : World) (name : String) : Rel w (linesOrTell w name).2 := by
  unfold Library.linesOrTell
  split
  · exact h.refl w
  · exact h.say w _ _ _

end Bears

theorem within_ofPure (name : String) (params : List ValueType) (returns : ValueType)
    (f : Call → Reply) : Within Rel (ofPure name params returns f) := fun _ w => h.refl w

theorem within_reading (name : String) (params : List ValueType) (returns : ValueType)
    (f : Call → World → Reply) : Within Rel (reading name params returns f) := fun _ w => h.refl w

omit h in
theorem within_acting {name : String} {params : List ValueType} {f : Call → World → World}
    (hf : ∀ c w, Rel w (f c w)) : Within Rel (acting name params f) := hf

theorem within_listen : Within Rel listen := by
  intro c w
  unfold listen
  dsimp only
  split
  · exact h.setListeners w _
  · exact h.report w rfl _

theorem within_speech : ∀ f ∈ speech, Within Rel f := by
  simp only [speech, List.forall_mem_cons]
  have saying (name : String) (volume : Volume) : Within Rel (saying name volume) :=
    within_acting fun _ w => h.say w _ _ _
  refine ⟨saying _ _, saying _ _, saying _ _, saying _ _, ?_, ?_, ?_, ?_, within_listen h, ?_, ?_,
    by simp⟩
  · exact within_acting fun _ w => h.tell w _ _ _
  · exact within_acting fun _ w => h.tell w _ _ _
  · exact within_acting fun _ w => h.tell w _ _ _
  · exact within_acting fun _ w => h.trans (h.setObject w _) (h.say _ _ _ _)
  · exact within_acting fun _ w => h.setListeners w _
  · exact within_acting fun _ w => h.setListeners w _

theorem within_setTimerEvent : Within Rel setTimerEvent := by
  intro c w
  unfold setTimerEvent
  dsimp only
  split
  · next hw => exact h.setTimer hw
  · exact h.setTimer (setTimer?_zero w)

theorem within_sleep : Within Rel sleep := by
  intro c w
  unfold sleep
  dsimp only
  split
  · split <;> exact h.refl w
  · exact h.refl w

theorem within_time : ∀ f ∈ time, Within Rel f := by
  simp only [time, List.forall_mem_cons]
  have reading (name : String) (t : ValueType) (f : Call → World → Reply) :
      Within Rel (reading name [] t f) := within_reading h _ _ _ _
  refine ⟨within_setTimerEvent h, within_sleep h, reading _ _ _, ?_, ?_, reading _ _ _,
    reading _ _ _, reading _ _ _, reading _ _ _, by simp⟩
  · exact within_acting fun _ w => h.resetTime w
  · exact fun _ w => h.resetTime w

theorem within_sensorRepeat : Within Rel sensorRepeat := by
  intro c w
  unfold sensorRepeat
  dsimp only
  split
  · next hw => exact h.repeatSweep hw
  · exact h.cancelSweep w

theorem within_sensing : ∀ f ∈ sensing, f ∈ bringing ∨ Within Rel f := by
  simp only [sensing, List.forall_mem_cons]
  have detecting (name : String) (t : ValueType) (f : Entity → Reply) :
      Within Rel (detecting name t f) := within_ofPure h _ _ _ _
  refine ⟨.inl (by simp [bringing]), .inr (within_sensorRepeat h), .inr ?_, .inr (detecting _ _ _),
    .inr (detecting _ _ _), .inr (detecting _ _ _), .inr (detecting _ _ _), .inr (detecting _ _ _),
    .inr (detecting _ _ _), .inr (detecting _ _ _), by simp⟩
  exact within_acting fun _ w => h.cancelSweep w

theorem within_self : ∀ f ∈ self, Within Rel f := by
  simp only [self, List.forall_mem_cons]
  have telling (name : String) (t : ValueType) (f : Object → Reply) :
      Within Rel (telling name t f) := within_reading h _ _ _ _
  have changing (name : String) (t : ValueType) (f : Call → Object → Object) :
      Within Rel (changing name t f) := within_acting fun _ w => h.setObject w _
  refine ⟨telling _ _ _, telling _ _ _, telling _ _ _, telling _ _ _, telling _ _ _, telling _ _ _,
    telling _ _ _, telling _ _ _, ?_, changing _ _ _, changing _ _ _, changing _ _ _,
    changing _ _ _, within_reading h _ _ _ _, ?_, by simp⟩
  · exact fun _ w => h.freshKey w
  · exact fun _ w => h.setDrawn w _

theorem within_math : ∀ f ∈ math, Within Rel f := by
  simp [math, ofFloat, ofFloats, rounding, turning, within_ofPure h]

theorem within_texts : ∀ f ∈ texts, Within Rel f := by
  simp [texts, cutting, ofText, parsing, within_ofPure h]

theorem within_lists : ∀ f ∈ lists, Within Rel f := by
  simp [lists, elementAs, slicing, within_ofPure h]

theorem within_notecardReader (name : String) (params : List ValueType) (returns : ValueType)
    (f : Call → Option (List String) → Reply) :
    Within Rel (notecardReader name params returns f) := by
  intro c w
  unfold notecardReader linesOrReport
  dsimp only
  split
  · exact h.refl w
  · exact h.report w rfl _

theorem within_extensions : ∀ f ∈ extensions, Within Rel f := by
  simp [extensions, within_ofPure h, within_reading h, within_notecardReader h]

section Asking

variable (ha : ∀ (w : World) (millis : Nat) {e : Event}, e.Own → e.asked = none →
  Rel w (w.answerAfter millis e))
include ha

omit h in
theorem rel_answering (w : World) (id text : String) : Rel w (answering w id text).2 :=
  ha w _ (Event.own_ofKind rfl rfl
    (by simp [Value.WellFormed, Value.ofKey, Key.isCanonical_normalize])) rfl

theorem within_httpRequest : Within Rel httpRequest := fun _ w =>
  h.trans (h.freshKey w) (ha _ _ (Event.own_ofKind rfl rfl
    (by simp [Value.WellFormed, Value.ofKey, Key.isCanonical_normalize])) rfl)

theorem within_getNotecardLine : Within Rel getNotecardLine := fun _ w =>
  h.trans (h.trans (h.freshKey w) (h.linesOrTell _ _)) (rel_answering ha _ _ _)

theorem within_getNumberOfNotecardLines : Within Rel getNumberOfNotecardLines := by
  intro c w
  apply h.trans (h.freshKey w)
  apply h.trans (h.linesOrTell w.freshKey.2 (c.string 0))
  unfold getNumberOfNotecardLines
  dsimp only
  split
  · next hl =>
    rw [hl]
    exact rel_answering ha _ _ _
  · next hl =>
    rw [hl]
    exact rel_answering ha _ _ _

theorem within_requestAgentData : Within Rel requestAgentData := by
  intro c w
  apply h.trans (h.freshKey w)
  unfold requestAgentData
  dsimp only
  split
  · exact rel_answering ha _ _ _
  · exact h.refl _

theorem within_asking : ∀ f ∈ asking, Within Rel f := by
  simp only [asking, List.forall_mem_cons]
  exact ⟨within_httpRequest h ha, within_getNotecardLine h ha, within_getNumberOfNotecardLines h ha,
    within_requestAgentData h ha, by simp⟩

end Asking

theorem within_requests : ∀ f ∈ requests, f ∈ asking ∨ f ∈ bringing ∨ Within Rel f := by
  simp only [requests, List.forall_mem_cons]
  exact ⟨.inl (by simp [asking]), .inl (by simp [asking]), .inl (by simp [asking]),
    .inl (by simp [asking]), .inr (.inl (by simp [bringing])), .inr (.inr (within_reading h _ _ _ _)),
    .inr (.inr (within_reading h _ _ _ _)), .inr (.inl (by simp [bringing])), by simp⟩

theorem within_others : ∀ f ∈ all, f ∈ asking ∨ f ∈ bringing ∨ Within Rel f := by
  simp only [all, List.forall_mem_append]
  have other {fs : List LibraryFunction} (hfs : ∀ f ∈ fs, Within Rel f) :
      ∀ f ∈ fs, f ∈ asking ∨ f ∈ bringing ∨ Within Rel f := fun f hf => .inr (.inr (hfs f hf))
  exact ⟨⟨⟨⟨⟨⟨⟨⟨other (within_speech h), other (within_time h)⟩,
    fun f hf => .inr (within_sensing h f hf)⟩, other (within_self h)⟩, other (within_math h)⟩,
    other (within_texts h)⟩, other (within_lists h)⟩, within_requests h⟩, other (within_extensions h)⟩

end Bearing

section Bringing

variable (h : Hosts Rel)
include h

theorem within_sensor : Within Rel sensor := by
  intro c w
  unfold sensor
  dsimp only
  rcases w.push_cases .sweep ((sweepEvent (w.scan (queryOf c) w.vantage)).askedAt w.entered) with
    ⟨q, hq, hp⟩ | ⟨x, hq, hp⟩
  · rw [hp]
    exact h.sweep hq
  · rw [hp]
    exact h.refused hq

theorem within_requestPermissions : Within Rel requestPermissions := fun _ w =>
  h.trans (h.setPermissions w _)
    (h.enqueue _ (Event.own_ofKind rfl rfl (by simp [Value.WellFormed])) rfl (.inl rfl))

theorem within_messageLinked : Within Rel messageLinked := by
  intro c w
  unfold messageLinked
  dsimp only
  split
  · exact h.enqueue w (Event.own_ofKind rfl rfl
      (by simp [Value.WellFormed, Value.ofKey, Key.isCanonical_normalize])) rfl (.inr rfl)
  · exact h.refl w

theorem within_bringing : ∀ f ∈ bringing, Within Rel f := by
  simp only [bringing, List.forall_mem_cons]
  exact ⟨within_sensor h, within_requestPermissions h, within_messageLinked h, by simp⟩

theorem within_all : ∀ f ∈ all, f ∈ asking ∨ Within Rel f := fun f hf =>
  (within_others h.toBears f hf).imp id fun hf => hf.elim (within_bringing h f) id

end Bringing

end Library

end PrimScript
