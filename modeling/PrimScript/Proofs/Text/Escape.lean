import PrimScript.Proofs.Iteration
import PrimScript.Proofs.Text.Utf8
import PrimScript.Text.Escape

/-! Escaping undone, and unescaping by places.  An escape is read back as the byte it was written for, whatever
follows it.  Unescaping looks at three places at once only where there are three, so that it never looks beyond
the end of a text. -/

namespace PrimScript.Text

variable {b h l n high low : Nat} {bs rest : List Nat} {c : Char} {cs : List Char}

def isEscapeChar (c : Char) : Bool := c.isAlphanum || c == '%'

theorem hexByte?_hexUpper (hn : n < 16) : hexByte? (hexUpper n).toNat = some n := by
  have hall : ∀ n < 16, hexByte? (hexUpper n).toNat = some n := by decide
  exact hall n hn

theorem hexUpper_ascii (hn : n < 16) : (hexUpper n).toNat < 0x80 ∧ isEscapeChar (hexUpper n) = true := by
  have hall : ∀ n < 16, (hexUpper n).toNat < 0x80 ∧ isEscapeChar (hexUpper n) = true := by decide
  exact hall n hn

theorem toNat_of_isUnescaped (hb : isUnescaped b = true) :
    (Char.ofNat b).toNat = b ∧ b < 0x80 ∧ b ≠ 0x25 ∧ isEscapeChar (Char.ofNat b) = true := by
  have hall : ∀ b < 0x80, isUnescaped b = true →
      (Char.ofNat b).toNat = b ∧ b < 0x80 ∧ b ≠ 0x25 ∧ isEscapeChar (Char.ofNat b) = true := by decide
  refine hall b ?_ hb
  simp only [isUnescaped, Bool.or_eq_true, Bool.and_eq_true, decide_eq_true_eq] at hb
  omega

theorem charBytes_ascii (hc : c.toNat < 0x80) : charBytes c = [c.toNat] := if_pos hc

theorem isEscapeChar_of_mem_escapeByte (hb : b < 0x100) (hc : c ∈ escapeByte b) : isEscapeChar c = true := by
  unfold escapeByte at hc
  split at hc
  · next hplain =>
    rw [List.mem_singleton.1 hc]
    exact (toNat_of_isUnescaped hplain).2.2.2
  · simp only [List.mem_cons, List.not_mem_nil, or_false] at hc
    rcases hc with rfl | rfl | rfl
    · rfl
    · exact (hexUpper_ascii (by omega)).2
    · exact (hexUpper_ascii (by omega)).2

theorem lt_of_mem_bytes (hb : b ∈ bytes cs) : b < 0x100 := by
  obtain ⟨c, -, hc⟩ := List.mem_flatMap.1 hb
  exact (encodes_charBytes c).lt_of_mem hc

theorem isEscapeChar_of_mem_escape (hc : c ∈ escape cs) : isEscapeChar c = true := by
  obtain ⟨b, hb, hc⟩ := List.mem_flatMap.1 hc
  exact isEscapeChar_of_mem_escapeByte (lt_of_mem_bytes hb) hc

theorem unescapeBytes_escape (hh : hexByte? h = some high) (hl : hexByte? l = some low) (bs : List Nat) :
    unescapeBytes (0x25 :: h :: l :: bs) = (high * 16 + low) :: unescapeBytes bs := by
  rw [unescapeBytes, hh, hl]

def BeginsEscape (b : Nat) (bs : List Nat) : Prop :=
  b = 0x25 ∧ ∃ h l rest, bs = h :: l :: rest ∧ (hexByte? h).isSome ∧ (hexByte? l).isSome

theorem unescapeBytes_byte (hb : ¬ BeginsEscape b bs) : unescapeBytes (b :: bs) = b :: unescapeBytes bs := by
  by_cases hthree : b = 0x25 ∧ ∃ h l rest, bs = h :: l :: rest
  · obtain ⟨rfl, h, l, rest, rfl⟩ := hthree
    rw [unescapeBytes]
    split
    · next hh hl =>
      exact absurd ⟨rfl, h, l, rest, rfl, Option.isSome_of_eq_some hh, Option.isSome_of_eq_some hl⟩ hb
    · rfl
  · rw [unescapeBytes]
    exact fun h l rest hpercent hbs => hthree ⟨hpercent, h, l, rest, hbs⟩

theorem unescapeBytes_escapeByte (hb : b < 0x100) (rest : List Nat) :
    unescapeBytes (bytes (escapeByte b) ++ rest) = b :: unescapeBytes rest := by
  unfold escapeByte
  split
  · next hplain =>
    obtain ⟨hchar, hascii, hpercent, -⟩ := toNat_of_isUnescaped hplain
    rw [bytes_cons, charBytes_ascii (by omega), hchar]
    exact unescapeBytes_byte fun hescape => hpercent hescape.1
  · have hhigh : b / 16 < 16 := by omega
    have hlow : b % 16 < 16 := by omega
    rw [bytes_cons, bytes_cons, bytes_cons, charBytes_ascii (hexUpper_ascii hhigh).1,
      charBytes_ascii (hexUpper_ascii hlow).1]
    exact (unescapeBytes_escape (hexByte?_hexUpper hhigh) (hexByte?_hexUpper hlow) rest).trans
      (by rw [Nat.div_add_mod'])

theorem unescapeBytes_escapeBytes (hbs : ∀ b ∈ bs, b < 0x100) :
    unescapeBytes (bytes (bs.flatMap escapeByte)) = bs := by
  induction bs with
  | nil => rfl
  | cons b bs ih =>
    rw [List.flatMap_cons, bytes_append, unescapeBytes_escapeByte (hbs b (.head _)),
      ih fun d hd => hbs d (.tail _ hd)]

theorem unescape_escape (cs : List Char) : unescape (escape cs) = cs := by
  rw [unescape, escape, unescapeBytes_escapeBytes fun _ => lt_of_mem_bytes, decode_bytes]

structure Unescaping where
  out : List Nat
  place : Nat

namespace Unescaping

def start : Unescaping := ⟨[], 0⟩

/-- A turn reads an escape, where there is one, or a byte that stands for itself.  It fails when it reads beyond
the end of the bytes. -/
def turn (bs : List Nat) (s : Unescaping) : Option (Turn Unescaping (List Nat)) :=
  if s.place < bs.length then do
    let b ← bs[s.place]?
    if b = 0x25 ∧ s.place + 2 < bs.length then do
      let h ← bs[s.place + 1]?
      let l ← bs[s.place + 2]?
      match hexByte? h, hexByte? l with
      | some high, some low => some (.next ⟨s.out ++ [high * 16 + low], s.place + 3⟩)
      | _, _ => some (.next ⟨s.out ++ [b], s.place + 1⟩)
    else some (.next ⟨s.out ++ [b], s.place + 1⟩)
  else some (.done s.out)

inductive Reads (bs : List Nat) (s : Unescaping) : Unescaping → Prop
  | escape {h l high low : Nat} {rest : List Nat} (ahead : bs.drop s.place = 0x25 :: h :: l :: rest)
    (hh : hexByte? h = some high) (hl : hexByte? l = some low) :
    Reads bs s ⟨s.out ++ [high * 16 + low], s.place + 3⟩
  | byte {b : Nat} {rest : List Nat} (ahead : bs.drop s.place = b :: rest) (plain : ¬ BeginsEscape b rest) :
    Reads bs s ⟨s.out ++ [b], s.place + 1⟩

theorem turn_cases (bs : List Nat) (s : Unescaping) :
    (bs.length ≤ s.place ∧ turn bs s = some (.done s.out)) ∨
      ∃ s', turn bs s = some (.next s') ∧ Reads bs s s' := by
  by_cases hlt : s.place < bs.length
  swap
  · exact .inl ⟨Nat.not_lt.1 hlt, if_neg hlt⟩
  right
  have hfirst := List.drop_eq_getElem_cons hlt
  rw [turn, if_pos hlt, List.getElem?_eq_getElem hlt, Option.bind_eq_bind, Option.bind_some]
  by_cases hescape : bs[s.place] = 0x25 ∧ s.place + 2 < bs.length
  · obtain ⟨hpercent, hbeyond⟩ := hescape
    have hnext : s.place + 1 < bs.length := Nat.lt_of_succ_lt hbeyond
    have hahead : bs.drop (s.place + 1) = bs[s.place + 1] :: bs[s.place + 2] :: bs.drop (s.place + 3) := by
      rw [List.drop_eq_getElem_cons hnext, List.drop_eq_getElem_cons hbeyond]
    rw [if_pos ⟨hpercent, hbeyond⟩, List.getElem?_eq_getElem hnext, List.getElem?_eq_getElem hbeyond,
      Option.bind_some, Option.bind_some]
    split
    · next hh hl => exact ⟨_, rfl, .escape (by rw [hfirst, hahead, hpercent]) hh hl⟩
    · next hnot =>
      refine ⟨_, rfl, .byte hfirst fun ⟨_, h, l, rest, heq, hh, hl⟩ => ?_⟩
      rw [hahead] at heq
      obtain ⟨rfl, htail⟩ := List.cons.inj heq
      obtain ⟨rfl, -⟩ := List.cons.inj htail
      exact hnot _ _ (Option.some_get hh).symm (Option.some_get hl).symm
  · refine ⟨_, if_neg hescape, .byte hfirst fun ⟨hpercent, h, l, rest, heq, _⟩ => ?_⟩
    have hlength := congrArg List.length heq
    rw [List.length_drop, List.length_cons, List.length_cons] at hlength
    exact hescape ⟨hpercent, by omega⟩

def final (bs : List Nat) (s : Unescaping) : List Nat := s.out ++ unescapeBytes (bs.drop s.place)

variable {s s' : Unescaping}

theorem drop_of_ahead {xs : List Nat} (count : Nat) (ahead : bs.drop s.place = xs) :
    bs.drop (s.place + count) = xs.drop count := by
  rw [← ahead, List.drop_drop]

theorem Reads.final_eq (hreads : Reads bs s s') : s'.final bs = s.final bs := by
  unfold final
  cases hreads with
  | escape ahead hh hl =>
    rw [ahead, unescapeBytes_escape hh hl, drop_of_ahead 3 ahead, List.append_assoc]
    rfl
  | byte ahead plain =>
    rw [ahead, unescapeBytes_byte plain, drop_of_ahead 1 ahead, List.append_assoc]
    rfl

theorem lt_length_of_ahead {b : Nat} {rest : List Nat} (ahead : bs.drop s.place = b :: rest) :
    s.place < bs.length := by
  by_contra hge
  rw [List.drop_eq_nil_of_le (Nat.not_lt.1 hge)] at ahead
  cases ahead

theorem Reads.size_lt (hreads : Reads bs s s') : bs.length - s'.place < bs.length - s.place := by
  cases hreads with
  | escape ahead => exact Nat.sub_lt_sub_left (lt_length_of_ahead ahead) (Nat.lt_add_of_pos_right (by decide))
  | byte ahead => exact Nat.sub_lt_sub_left (lt_length_of_ahead ahead) (Nat.lt_add_of_pos_right (by decide))

theorem ends_unescapeBytes (bs : List Nat) : Turn.Ends (turn bs) start (unescapeBytes bs) := by
  refine Turn.ends_of_kept (fun s => bs.length - s.place) (final bs) (fun s => ?_) start
  rcases turn_cases bs s with ⟨hend, hdone⟩ | ⟨s', hnext, hreads⟩
  · rw [final, List.drop_eq_nil_of_le hend, unescapeBytes, List.append_nil]
    exact .inl hdone
  · exact .inr ⟨s', hnext, hreads.final_eq, hreads.size_lt⟩

/-- What would be an escape, but for the end of the text, stands for itself. -/
example : unescape ['%', '4', '1', '%', '4'] = ['A', '%', '4'] := by decide

end Unescaping

end PrimScript.Text
