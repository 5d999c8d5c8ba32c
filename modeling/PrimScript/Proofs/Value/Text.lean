import PrimScript.Proofs.Decimal.Reread
import PrimScript.Value.Coerce

/-! Casts of floats, vectors and rotations to their texts and back.  The components of a text are
read whole, and the value that is read has the same text. -/

namespace PrimScript

namespace Text

variable {sep : Char → Bool} {c : Char} {cs piece : List Char} {pieces : List (List Char)}

theorem splitOn_append (hp : ∀ c ∈ piece, sep c = false) {first : List Char}
    (h : splitOn sep cs = first :: pieces) :
    splitOn sep (piece ++ cs) = (piece ++ first) :: pieces := by
  induction piece with
  | nil => exact h
  | cons c piece ih =>
    have hrest := ih fun d hd => hp d (.tail c hd)
    simp [splitOn, hp c (.head piece), hrest]

theorem splitOn_joinWith {pad : List Char} (hc : sep c) (hpad : ∀ d ∈ pad, sep d = false)
    (hp : ∀ p ∈ piece :: pieces, ∀ d ∈ p, sep d = false) :
    splitOn sep (joinWith (c :: pad) (piece :: pieces)) = piece :: pieces.map (pad ++ ·) := by
  induction pieces generalizing piece with
  | nil =>
    have h := splitOn_append (hp piece (.head [])) (rfl : splitOn sep [] = [[]])
    simpa [joinWith] using h
  | cons next pieces ih =>
    have hnext := splitOn_append hpad (ih fun p hm => hp p (.tail piece hm))
    have hsep : splitOn sep (c :: (pad ++ joinWith (c :: pad) (next :: pieces))) =
        [] :: (pad ++ next) :: pieces.map (pad ++ ·) := by simp [splitOn, hc, hnext]
    have h := splitOn_append (hp piece (.head _)) hsep
    simpa [joinWith] using h

theorem mem_joinWith {d : Char} {between : List Char} (h : d ∈ joinWith between pieces) :
    d ∈ between ∨ ∃ p ∈ pieces, d ∈ p := by
  induction pieces with
  | nil => simp [joinWith] at h
  | cons piece pieces ih =>
    cases pieces with
    | nil => exact .inr ⟨piece, .head [], h⟩
    | cons next pieces =>
      rw [joinWith, List.append_assoc, List.mem_append, List.mem_append] at h
      · rcases h with h | h | h
        · exact .inr ⟨piece, .head _, h⟩
        · exact .inl h
        · exact (ih h).imp_right fun ⟨p, hp, hd⟩ => ⟨p, .tail piece hp, hd⟩
      · simp

theorem trim_between {d : Char} (hc : isBlank c = false) (hd : isBlank d = false) (cs : List Char) :
    trim (c :: (cs ++ [d])) = c :: (cs ++ [d]) := by
  have hstart : trimStart (c :: (cs ++ [d])) = c :: (cs ++ [d]) := by simp [trimStart, hc]
  rw [trim, hstart, trimEnd]
  simp [hd]

end Text

namespace Value

open Decimal (ReadAs Expansion)
open Text (joinWith)

def bracketed (parts : List (List Char)) : List Char := '<' :: (joinWith [',', ' '] parts ++ ['>'])

theorem vectorText_eq (v : Vector3) :
    vectorText v = bracketed
      [Expansion.fixed 5 (.ofFloat v.x), Expansion.fixed 5 (.ofFloat v.y),
        Expansion.fixed 5 (.ofFloat v.z)] := by
  simp [vectorText, bracketed, joinWith]

theorem rotationText_eq (r : Rotation) :
    rotationText r = bracketed
      [Expansion.fixed 5 (.ofFloat r.x), Expansion.fixed 5 (.ofFloat r.y),
        Expansion.fixed 5 (.ofFloat r.z), Expansion.fixed 5 (.ofFloat r.s)] := by
  simp [rotationText, bracketed, joinWith]

def Inner (part : List Char) : Prop := ∀ c ∈ part, c ≠ ',' ∧ c ≠ '>'

theorem inner_fixed {places : Nat} (h : 0 < places) (e : Expansion) : Inner (e.fixed places) := by
  intro c hc
  constructor
  · rintro rfl
    exact (Decimal.mem_fixed h hc).elim (absurd · (by decide)) (absurd · (by decide))
  · rintro rfl
    exact (Decimal.mem_fixed h hc).elim (absurd · (by decide)) (absurd · (by decide))

section Components

variable {part : List Char} {parts : List (List Char)} {x : Float} {xs : List Float}

theorem mapM_floatPrefix? (h : List.Forall₂ ReadAs parts xs) :
    (parts.map ([' '] ++ ·)).mapM Decimal.floatPrefix? = some xs := by
  induction h with
  | nil => rfl
  | @cons part x parts xs hp h ih =>
    have hpart := hp.before [] (Decimal.stops_nil _)
    rw [List.append_nil] at hpart
    rw [List.map_cons, List.mapM_cons, List.singleton_append, Decimal.floatPrefix?_blank, hpart, ih]
    rfl

theorem components?_bracketed (h : List.Forall₂ ReadAs (part :: parts) (x :: xs))
    (hi : ∀ p ∈ part :: parts, Inner p) :
    components? (part :: parts).length (bracketed (part :: parts)) = some (x :: xs) := by
  obtain ⟨hp, hrest⟩ := List.forall₂_cons.1 h
  have hpart := hp.before [] (Decimal.stops_nil _)
  rw [List.append_nil] at hpart
  have hopen : ∀ c ∈ joinWith [',', ' '] (part :: parts), (decide (c ≠ '>')) = true := by
    intro c hc
    rcases Text.mem_joinWith hc with hc | ⟨p, hp, hc⟩
    · simp only [List.mem_cons, List.not_mem_nil, or_false] at hc
      rcases hc with rfl | rfl <;> rfl
    · exact decide_eq_true (hi p hp c hc).2
  have hinside : (joinWith [',', ' '] (part :: parts) ++ ['>']).takeWhile (· ≠ '>') =
      joinWith [',', ' '] (part :: parts) := by
    rw [List.takeWhile_append_of_pos hopen]
    simp
  have hsplit : Text.splitOn (· = ',') (joinWith [',', ' '] (part :: parts)) =
      part :: parts.map ([' '] ++ ·) :=
    Text.splitOn_joinWith rfl (by simp) fun p hp d hd => decide_eq_false (hi p hp d hd).1
  have htrim := Text.trim_between (rfl : Text.isBlank '<' = false) (rfl : Text.isBlank '>' = false)
    (joinWith [',', ' '] (part :: parts))
  have hlength : (part :: parts.map ([' '] ++ ·)).length = (part :: parts).length := by simp
  simp only [components?, bracketed, htrim, hinside, hsplit, if_pos hlength]
  rw [List.mapM_cons, hpart, mapM_floatPrefix? hrest]
  rfl

end Components

/-- The text of `x` with so many places is read as `y`, all of it, and `y` has the same text. -/
structure Rereads (places : Nat) (x y : Float) : Prop where
  read : ReadAs (Expansion.fixed places (.ofFloat x)) y
  text : Expansion.fixed places (.ofFloat y) = Expansion.fixed places (.ofFloat x)

theorem exists_rereads {places : Nat} (h : 0 < places) (h' : places < 16) (x : Float) :
    ∃ y, Rereads places x y :=
  (Decimal.exists_readAs_fixed h h' x).imp fun _ hy => ⟨hy.1, hy.2⟩

theorem floatPrefix?_chars {x y : Float} (h : Rereads 6 x y) :
    Decimal.floatPrefix? (chars (.float x)) = some y := by
  have hx := h.read.before [] (Decimal.stops_nil _)
  rwa [List.append_nil] at hx

section Vector

variable {v w : Vector3}

theorem vectorOf?_vectorText (hx : Rereads 5 v.x w.x) (hy : Rereads 5 v.y w.y)
    (hz : Rereads 5 v.z w.z) : vectorOf? (vectorText v) = some w := by
  have h := components?_bracketed (.cons hx.read (.cons hy.read (.cons hz.read .nil))) (by
    simp [inner_fixed])
  rw [vectorText_eq, vectorOf?]
  simp only [List.length_cons, List.length_nil] at h
  rw [h]

theorem vectorText_eq_of_rereads (hx : Rereads 5 v.x w.x) (hy : Rereads 5 v.y w.y)
    (hz : Rereads 5 v.z w.z) : vectorText w = vectorText v := by
  rw [vectorText_eq, vectorText_eq, hx.text, hy.text, hz.text]

end Vector

section Rotation

variable {r t : Rotation}

theorem rotationOf?_rotationText (hx : Rereads 5 r.x t.x) (hy : Rereads 5 r.y t.y)
    (hz : Rereads 5 r.z t.z) (hs : Rereads 5 r.s t.s) : rotationOf? (rotationText r) = some t := by
  have h := components?_bracketed
    (.cons hx.read (.cons hy.read (.cons hz.read (.cons hs.read .nil)))) (by simp [inner_fixed])
  rw [rotationText_eq, rotationOf?]
  simp only [List.length_cons, List.length_nil] at h
  rw [h]

theorem rotationText_eq_of_rereads (hx : Rereads 5 r.x t.x) (hy : Rereads 5 r.y t.y)
    (hz : Rereads 5 r.z t.z) (hs : Rereads 5 r.s t.s) : rotationText t = rotationText r := by
  rw [rotationText_eq, rotationText_eq, hx.text, hy.text, hz.text, hs.text]

end Rotation

/-- The texts of floats, vectors and rotations are stable under casts.  Every component is read, and
all of its text; the value that is read is cast to the same text. -/
theorem texts_stable :
    (∀ x : Float, ∃ y, Rereads 6 x y ∧ Decimal.floatPrefix? (chars (.float x)) = some y ∧
      ((float x).coerce .string).coerce .float = .float y ∧
      (float y).coerce .string = (float x).coerce .string) ∧
    (∀ v : Vector3, ∃ w : Vector3, Rereads 5 v.x w.x ∧ Rereads 5 v.y w.y ∧ Rereads 5 v.z w.z ∧
      vectorOf? (chars (.vector v)) = some w ∧
      ((vector v).coerce .string).coerce .vector = .vector w ∧
      (vector w).coerce .string = (vector v).coerce .string) ∧
    ∀ r : Rotation, ∃ t : Rotation,
      Rereads 5 r.x t.x ∧ Rereads 5 r.y t.y ∧ Rereads 5 r.z t.z ∧ Rereads 5 r.s t.s ∧
      rotationOf? (chars (.rotation r)) = some t ∧
      ((rotation r).coerce .string).coerce .rotation = .rotation t ∧
      (rotation t).coerce .string = (rotation r).coerce .string := by
  have h (x : Float) := exists_rereads (by decide : 0 < 5) (by decide : 5 < 16) x
  refine ⟨fun x => ?_, fun v => ?_, fun r => ?_⟩
  · obtain ⟨y, hy⟩ := exists_rereads (by decide : 0 < 6) (by decide : 6 < 16) x
    have hread := floatPrefix?_chars hy
    refine ⟨y, hy, hread, ?_, ?_⟩
    · simp [coerce, ofChars, hread]
    · simp [coerce, ofChars, chars, hy.text]
  · obtain ⟨x, hx⟩ := h v.x
    obtain ⟨y, hy⟩ := h v.y
    obtain ⟨z, hz⟩ := h v.z
    have hread : vectorOf? (vectorText v) = some ⟨x, y, z⟩ := vectorOf?_vectorText hx hy hz
    refine ⟨⟨x, y, z⟩, hx, hy, hz, hread, ?_, ?_⟩
    · simp [coerce, ofChars, hread]
    · simp [coerce, ofChars, vectorText_eq_of_rereads (w := ⟨x, y, z⟩) hx hy hz]
  · obtain ⟨x, hx⟩ := h r.x
    obtain ⟨y, hy⟩ := h r.y
    obtain ⟨z, hz⟩ := h r.z
    obtain ⟨s, hs⟩ := h r.s
    have hread : rotationOf? (rotationText r) = some ⟨x, y, z, s⟩ :=
      rotationOf?_rotationText hx hy hz hs
    refine ⟨⟨x, y, z, s⟩, hx, hy, hz, hs, hread, ?_, ?_⟩
    · simp [coerce, ofChars, hread]
    · simp [coerce, ofChars, rotationText_eq_of_rereads (t := ⟨x, y, z, s⟩) hx hy hz hs]

/-- What is read need not be what was written. -/
example : ((float 0.1234567).coerce .string).coerce .float = .float 0.123457 := by rfl

end Value

end PrimScript
