import PrimScript.World.Basic

/-! Worlds between which nothing has changed that has to do with events.  So does a world at its start come
of one that nothing has happened in. -/

namespace PrimScript

/-- Is it a fault that the script goes on after?  That an event does not fit is none of the script's, and
what ends a run is not gone on after. -/
def DiagnosticKind.isFault : DiagnosticKind → Bool
  | .queueOverflow => false
  | .fatal => false
  | _ => true

namespace World

def reported (w : World) (kind : DiagnosticKind) : List Diagnostic :=
  w.diagnostics.toList.filter (·.kind = kind)

theorem reported_report (w : World) (kind kind' : DiagnosticKind) (message : String) :
    (w.report kind message).reported kind' =
      w.reported kind' ++ if kind = kind' then [⟨kind, message⟩] else [] := by
  rw [reported, report, Array.toList_push, List.filter_append, reported]
  by_cases h : kind = kind'
  · simp [h]
  · simp [h]

theorem reported_report_of_ne (w : World) {kind kind' : DiagnosticKind} (h : kind ≠ kind')
    (message : String) : (w.report kind message).reported kind' = w.reported kind' := by
  rw [reported_report, if_neg h, List.append_nil]

structure Basis where
  settings : Settings
  around : Surroundings
  looping : Bool
  dropped : History Alarm

def basis (w : World) : Basis := ⟨w.settings, w.around, w.looping, w.dropped⟩

/-- Nothing has changed that has to do with events, except that fresh keys may have been given out; and
only faults have been reported. -/
structure Alike (w w' : World) : Prop where
  basis : w'.basis = w.basis
  queue : w'.queue = w.queue
  entered : w'.entered = w.entered
  outside : w'.outside = w.outside
  alarms : w'.alarms = w.alarms
  alarmsSet : w'.alarmsSet = w.alarmsSet
  attempts : w'.attempts = w.attempts
  keysGiven : w.keysGiven ≤ w'.keysGiven
  pushes : w'.pushes = w.pushes
  reported : ∀ kind, kind.isFault = false → w'.reported kind = w.reported kind

namespace Alike

variable {w w' w'' : World}

theorem refl (w : World) : Alike w w := ⟨rfl, rfl, rfl, rfl, rfl, rfl, rfl, Nat.le_refl _, rfl, fun _ _ => rfl⟩

theorem trans (h : Alike w w') (h' : Alike w' w'') : Alike w w'' where
  basis := h'.basis.trans h.basis
  queue := h'.queue.trans h.queue
  entered := h'.entered.trans h.entered
  outside := h'.outside.trans h.outside
  alarms := h'.alarms.trans h.alarms
  alarmsSet := h'.alarmsSet.trans h.alarmsSet
  attempts := h'.attempts.trans h.attempts
  keysGiven := Nat.le_trans h.keysGiven h'.keysGiven
  pushes := h'.pushes.trans h.pushes
  reported kind hk := (h'.reported kind hk).trans (h.reported kind hk)

theorem settings (h : Alike w w') : w'.settings = w.settings := congrArg Basis.settings h.basis

theorem report (w : World) {kind : DiagnosticKind} (hk : kind.isFault) (message : String) :
    Alike w (w.report kind message) :=
  { refl w with reported := fun kind' hk' => w.reported_report_of_ne (by rintro rfl; simp_all) message }

theorem keyOr (w : World) (key : Option String) : Alike w (w.keyOr key).2 := by
  cases key with
  | some key => exact refl w
  | none => exact { refl w with keysGiven := Nat.le_succ _ }

theorem placeSettings (w : World) (e : EntitySettings) : Alike w (w.placeSettings e) :=
  (keyOr w e.key).trans { refl _ with }

theorem foldl_placeSettings (w : World) (es : List EntitySettings) :
    Alike w (es.foldl World.placeSettings w) := by
  induction es generalizing w with
  | nil => exact refl w
  | cons e es ih => exact (placeSettings w e).trans (ih _)

end Alike

structure Fresh (s : Settings) (around : Surroundings) (w : World) : Prop where
  basis : w.basis = ⟨s, around, false, .empty⟩
  queue : w.queue = .empty s.queueCapacity
  entered : w.entered = .empty
  outside : w.outside = []
  alarms : w.alarms = []
  attempts : w.attempts = .empty
  pushes : w.pushes = .empty
  diagnostics : w.diagnostics = #[]

theorem exists_fresh_alike (s : Settings) (around : Surroundings) :
    ∃ w, Fresh s around w ∧ w.Alike (ofSettings s around) := by
  unfold ofSettings
  extract_lets o object w₀ w₁
  have h₁ : w₀.Alike w₁ := .foldl_placeSettings w₀ _
  have h₂ : w₀.Alike (w₁.keyOr o.key).2 := h₁.trans (.keyOr w₁ o.key)
  exact ⟨w₀, ⟨rfl, rfl, rfl, rfl, rfl, rfl, rfl, rfl⟩, (h₂.trans (.keyOr _ o.ownerKey)).trans { Alike.refl _ with }⟩

end World

end PrimScript
