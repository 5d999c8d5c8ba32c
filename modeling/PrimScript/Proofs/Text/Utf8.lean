import Mathlib.Data.List.Infix
import PrimScript.Proofs.Iteration
import PrimScript.Proofs.Text.Search
import PrimScript.Proofs.Token.Tiling

/-! Texts as bytes.  The first byte of a character is told from those that follow it, so that a text is read back
from its bytes.  The first place where a text stands in another one is the same whether characters are compared or
bytes: no character has a byte in it with which another one begins, so that a text that begins with a character is
never found inside of one.  And stepping back from any byte leads to the end of the longest beginning of the text
that has no more bytes. -/

namespace PrimScript.Text

def isTail (b : Nat) : Bool := 0x80 ≤ b && b < 0xC0

inductive Encodes (n : Nat) : List Nat → Prop
  | one (high : n < 0x80) : Encodes n [n]
  | two (low : 0x80 ≤ n) (high : n < 0x800) : Encodes n [0xC0 + n / 0x40, 0x80 + n % 0x40]
  | three (low : 0x800 ≤ n) (high : n < 0x10000) (plain : ¬ (0xD800 ≤ n ∧ n < 0xE000)) :
    Encodes n [0xE0 + n / 0x1000, 0x80 + n / 0x40 % 0x40, 0x80 + n % 0x40]
  | four (low : 0x10000 ≤ n) (high : n < 0x110000) :
    Encodes n [0xF0 + n / 0x40000, 0x80 + n / 0x1000 % 0x40, 0x80 + n / 0x40 % 0x40, 0x80 + n % 0x40]

section Char

variable (c : Char)

theorem toNat_lt : c.toNat < 0x110000 := by
  rcases c.valid with h | h
  · exact Nat.lt_trans h (by decide)
  · exact h.2

theorem toNat_not_surrogate : ¬ (0xD800 ≤ c.toNat ∧ c.toNat < 0xE000) := by
  rintro ⟨hlow, hhigh⟩
  rcases c.valid with h | h
  · exact absurd h (Nat.not_lt.2 hlow)
  · exact absurd h.1 (Nat.not_lt.2 (Nat.le_of_lt_succ hhigh))

theorem encodes_charBytes : Encodes c.toNat (charBytes c) := by
  unfold charBytes
  dsimp only
  split
  · next h => exact .one h
  split
  · next h h' => exact .two (Nat.not_lt.1 h) h'
  split
  · next h h' => exact .three (Nat.not_lt.1 h) h' (toNat_not_surrogate c)
  · next h => exact .four (Nat.not_lt.1 h) (toNat_lt c)

theorem utf8Size_eq : c.utf8Size = if c.toNat < 0x80 then 1 else if c.toNat < 0x800 then 2 else
    if c.toNat < 0x10000 then 3 else 4 := by
  simp only [Char.utf8Size, UInt32.le_iff_toNat_le, ← Nat.lt_succ_iff]
  rfl

end Char

namespace Encodes

variable {n : Nat} {bs : List Nat}

theorem length {c : Char} (h : Encodes c.toNat bs) : bs.length = c.utf8Size := by
  rw [utf8Size_eq]
  cases h with
  | one high => rw [if_pos high]; rfl
  | two low high => rw [if_neg (Nat.not_lt.2 low), if_pos high]; rfl
  | three low high => rw [if_neg (by omega), if_neg (by omega), if_pos high]; rfl
  | four low => rw [if_neg (by omega), if_neg (by omega), if_neg (by omega)]; rfl

theorem exists_cons (h : Encodes n bs) :
    ∃ b tail, bs = b :: tail ∧ isTail b = false ∧ ∀ d ∈ tail, isTail d = true := by
  have hfirst (b : Nat) (hb : b < 0x80 ∨ 0xC0 ≤ b) : isTail b = false := by
    simp only [isTail, Bool.and_eq_false_iff, decide_eq_false_iff_not]
    omega
  have htail (m : Nat) : isTail (0x80 + m % 0x40) = true := by
    simp only [isTail, Bool.and_eq_true, decide_eq_true_iff]
    omega
  cases h with
  | one high => exact ⟨_, _, rfl, hfirst _ (.inl high), by simp⟩
  | two => exact ⟨_, _, rfl, hfirst _ (.inr (by omega)), by simp [htail]⟩
  | three => exact ⟨_, _, rfl, hfirst _ (.inr (by omega)), by simp [htail]⟩
  | four => exact ⟨_, _, rfl, hfirst _ (.inr (by omega)), by simp [htail]⟩

theorem lt_of_mem (h : Encodes n bs) {b : Nat} (hb : b ∈ bs) : b < 0x100 := by
  cases h <;> grind

end Encodes

section Decode

variable {b v low high k m q : Nat} {l : Lead} (bs : List Nat)

theorem lead?_two (hlow : 2 ≤ q) (hhigh : q < 0x20) : lead? (0xC0 + q) = some ⟨q, 0x80, 0xBF, 1⟩ := by
  rw [lead?, if_pos (by omega), Nat.add_sub_cancel_left]

theorem lead?_three (h : q < 0x10) : lead? (0xE0 + q) =
    some ⟨q, if q = 0 then 0xA0 else 0x80, if q = 0xD then 0x9F else 0xBF, 2⟩ := by
  unfold lead?
  grind

theorem lead?_four (h : q < 5) : lead? (0xF0 + q) =
    some ⟨q, if q = 0 then 0x90 else 0x80, if q = 4 then 0x8F else 0xBF, 3⟩ := by
  unfold lead?
  grind

theorem le_of_lead? (h : lead? b = some l) : 0xC2 ≤ b := by
  unfold lead? at h
  grind

theorem decodeFrom_ascii (h : b < 0x80) :
    decodeFrom none (b :: bs) = Char.ofNat b :: decodeFrom none bs := by
  rw [decodeFrom, if_pos h]

theorem decodeFrom_lead (h : lead? b = some l) :
    decodeFrom none (b :: bs) = decodeFrom (some l) bs := by
  have hb := le_of_lead? h
  rw [decodeFrom, if_neg (by omega), h]

theorem decodeFrom_next (hlow : low ≤ 0x80 + m) (hhigh : 0x80 + m ≤ high) :
    decodeFrom (some ⟨v, low, high, k + 2⟩) ((0x80 + m) :: bs) =
      decodeFrom (some ⟨v * 0x40 + m, 0x80, 0xBF, k + 1⟩) bs := by
  rw [decodeFrom, if_pos ⟨hlow, hhigh⟩, Nat.add_sub_cancel_left]
  exact if_neg (Nat.succ_succ_ne_one k)

theorem decodeFrom_last (hlow : low ≤ 0x80 + m) (hhigh : 0x80 + m ≤ high) :
    decodeFrom (some ⟨v, low, high, 1⟩) ((0x80 + m) :: bs) =
      Char.ofNat (v * 0x40 + m) :: decodeFrom none bs := by
  rw [decodeFrom, if_pos ⟨hlow, hhigh⟩, Nat.add_sub_cancel_left]
  exact if_pos rfl

theorem Encodes.decodeFrom {n : Nat} {cs : List Nat} (h : Encodes n cs) :
    decodeFrom none (cs ++ bs) = Char.ofNat n :: decodeFrom none bs := by
  cases h with
  | one high => exact decodeFrom_ascii bs high
  | two low high =>
    have hn : n / 0x40 * 0x40 + n % 0x40 = n := by omega
    rw [List.cons_append, List.cons_append, List.nil_append,
      decodeFrom_lead _ (lead?_two (by omega) (by omega)),
      decodeFrom_last _ (by omega) (by omega), hn]
  | three low high plain =>
    have hn : (n / 0x1000 * 0x40 + n / 0x40 % 0x40) * 0x40 + n % 0x40 = n := by omega
    rw [List.cons_append, List.cons_append, List.cons_append, List.nil_append,
      decodeFrom_lead _ (lead?_three (by omega)),
      decodeFrom_next _ (by split <;> omega) (by split <;> omega),
      decodeFrom_last _ (by omega) (by omega), hn]
  | four low high =>
    have hn : ((n / 0x40000 * 0x40 + n / 0x1000 % 0x40) * 0x40 + n / 0x40 % 0x40) * 0x40 + n % 0x40 = n := by
      omega
    rw [List.cons_append, List.cons_append, List.cons_append, List.cons_append, List.nil_append,
      decodeFrom_lead _ (lead?_four (by omega)),
      decodeFrom_next _ (by split <;> omega) (by split <;> omega),
      decodeFrom_next _ (by omega) (by omega), decodeFrom_last _ (by omega) (by omega), hn]

theorem decodeFrom_charBytes (c : Char) :
    decodeFrom none (charBytes c ++ bs) = c :: decodeFrom none bs := by
  rw [(encodes_charBytes c).decodeFrom, Char.ofNat_toNat]

theorem bytes_cons (c : Char) (cs : List Char) : bytes (c :: cs) = charBytes c ++ bytes cs := rfl

theorem bytes_append (as cs : List Char) : bytes (as ++ cs) = bytes as ++ bytes cs := List.flatMap_append

theorem length_bytes (cs : List Char) : (bytes cs).length = byteCount cs := by
  induction cs with
  | nil => rfl
  | cons c cs ih => rw [bytes_cons, List.length_append, (encodes_charBytes c).length, ih, byteCount_cons]

theorem decode_bytes (cs : List Char) : decode (bytes cs) = cs := by
  induction cs with
  | nil => rfl
  | cons c cs ih => rw [bytes_cons, decode, decodeFrom_charBytes, ← decode, ih]

end Decode

section Places

variable {α : Type} [DecidableEq α] {p xs : List α} {i : Nat}

def placeOf? (p xs : List α) : Option Nat := xs.tails.findIdx? p.isPrefixOf

theorem placeOf?_eq_some_iff : placeOf? p xs = some i ↔
    i ≤ xs.length ∧ p.IsPrefix (xs.drop i) ∧ ∀ j < i, ¬ p.IsPrefix (xs.drop j) := by
  rw [placeOf?, List.findIdx?_eq_some_iff_getElem]
  simp only [List.length_tails, List.getElem_tails, List.isPrefixOf_iff_prefix, Nat.lt_succ_iff,
    exists_prop]

theorem placeOf?_eq_none_iff : placeOf? p xs = none ↔ ∀ j, ¬ p.IsPrefix (xs.drop j) := by
  simp only [placeOf?, List.findIdx?_eq_none_iff, List.mem_tails, ← Bool.not_eq_true,
    List.isPrefixOf_iff_prefix]
  refine ⟨fun h j => h _ (List.drop_suffix j xs), fun h ys hys => ?_⟩
  rw [List.suffix_iff_eq_drop.1 hys]
  exact h _

theorem placeOf?_nil (hp : p ≠ []) : placeOf? p [] = none := by
  cases p with
  | nil => exact absurd rfl hp
  | cons a p => rfl

theorem placeOf?_of_isPrefix (h : p.IsPrefix xs) : placeOf? p xs = some 0 :=
  placeOf?_eq_some_iff.2 ⟨Nat.zero_le _, h, fun _ hj => absurd hj (Nat.not_lt_zero _)⟩

theorem placeOf?_cons {x : α} (h : ¬ p.IsPrefix (x :: xs)) :
    placeOf? p (x :: xs) = (placeOf? p xs).map (· + 1) := by
  rw [placeOf?, List.tails_cons, List.findIdx?_cons, if_neg (mt List.isPrefixOf_iff_prefix.1 h)]
  rfl

theorem placeOf?_append {ys : List α} (h : ∀ j < xs.length, ¬ p.IsPrefix ((xs ++ ys).drop j)) :
    placeOf? p (xs ++ ys) = (placeOf? p ys).map (· + xs.length) := by
  induction xs with
  | nil => simp
  | cons x xs ih =>
    have hfirst : ¬ p.IsPrefix (x :: (xs ++ ys)) := h 0 (Nat.succ_pos _)
    rw [List.cons_append, placeOf?_cons hfirst, ih fun j hj => h (j + 1) (Nat.succ_lt_succ hj),
      Option.map_map]
    rfl

end Places

theorem indexOf?_eq_placeOf? (p cs : List Char) : indexOf? p cs = placeOf? p cs := by
  induction cs with
  | nil =>
    cases p with
    | nil => rfl
    | cons c p => rfl
  | cons c cs ih =>
    rw [indexOf?]
    split
    · next h => rw [placeOf?_of_isPrefix ((isSome_dropPrefix?_iff _ _).1 h)]
    · next h => rw [placeOf?_cons (mt (isSome_dropPrefix?_iff _ _).2 h), ih]

section Bytes

variable {p cs : List Char}

theorem exists_bytes (hp : p ≠ []) : ∃ b bs, bytes p = b :: bs ∧ isTail b = false := by
  cases p with
  | nil => exact absurd rfl hp
  | cons c p =>
    obtain ⟨b, tail, hbytes, hb, -⟩ := (encodes_charBytes c).exists_cons
    exact ⟨b, tail ++ bytes p, by rw [bytes_cons, hbytes, List.cons_append], hb⟩

theorem bytes_prefix_iff : (bytes p).IsPrefix (bytes cs) ↔ p.IsPrefix cs := by
  constructor
  · intro h
    induction p generalizing cs with
    | nil => exact List.nil_prefix
    | cons a p ih =>
      obtain ⟨rest, hrest⟩ := h
      rw [bytes_cons, List.append_assoc] at hrest
      cases cs with
      | nil =>
        obtain ⟨b, tail, hbytes, -⟩ := (encodes_charBytes a).exists_cons
        rw [hbytes] at hrest
        cases hrest
      | cons c cs =>
        have hdecoded := congrArg (decodeFrom none) hrest
        rw [bytes_cons, decodeFrom_charBytes, decodeFrom_charBytes] at hdecoded
        obtain rfl := (List.cons.inj hdecoded).1
        exact List.cons_prefix_cons.2 ⟨rfl, ih ⟨rest, List.append_cancel_left hrest⟩⟩
  · rintro ⟨rest, rfl⟩
    exact ⟨bytes rest, (bytes_append p rest).symm⟩

theorem not_prefix_inside (hp : p ≠ []) {c : Char} {j : Nat} (hj : 0 < j) (hlt : j < (charBytes c).length)
    (bs : List Nat) : ¬ (bytes p).IsPrefix ((charBytes c ++ bs).drop j) := by
  obtain ⟨b, rest, hbytes, hb⟩ := exists_bytes hp
  obtain ⟨first, tail, hchar, -, htail⟩ := (encodes_charBytes c).exists_cons
  obtain ⟨j, rfl⟩ := Nat.exists_eq_succ_of_ne_zero hj.ne'
  rw [hchar, List.length_cons, Nat.succ_lt_succ_iff] at hlt
  rw [hbytes, hchar, List.cons_append, List.drop_succ_cons, List.drop_append_of_le_length hlt.le,
    List.drop_eq_getElem_cons hlt, List.cons_append]
  intro h
  have hsame := (List.cons_prefix_cons.1 h).1
  rw [hsame, htail _ (List.getElem_mem hlt)] at hb
  exact Bool.noConfusion hb

theorem placeOf?_bytes (hp : p ≠ []) (cs : List Char) :
    placeOf? (bytes p) (bytes cs) = (placeOf? p cs).map fun i => byteCount (cs.take i) := by
  induction cs with
  | nil =>
    obtain ⟨b, rest, hbytes, -⟩ := exists_bytes hp
    rw [placeOf?_nil hp, hbytes]
    rfl
  | cons c cs ih =>
    by_cases h : p.IsPrefix (c :: cs)
    · rw [placeOf?_of_isPrefix h, placeOf?_of_isPrefix (bytes_prefix_iff.2 h)]
      rfl
    · rw [placeOf?_cons h, bytes_cons, placeOf?_append, ih, Option.map_map, Option.map_map]
      · congr 1
        funext i
        simp only [Function.comp_apply, List.take_succ_cons, byteCount_cons]
        rw [(encodes_charBytes c).length, Nat.add_comm]
      · intro j hj
        rcases Nat.eq_zero_or_pos j with rfl | hpos
        · exact fun hprefix => h (bytes_prefix_iff.1 hprefix)
        · exact not_prefix_inside hp hpos hj _

theorem found_bytes {i : Nat} {places : List Nat} (hp : p ≠ []) (h : Found p i cs places) :
    ∀ before : List Char, before.length = i → Found (bytes p) (byteCount before) (bytes cs)
      (places.map fun j => byteCount ((before ++ cs).take j)) := by
  induction h with
  | nil => exact fun _ _ => .nil
  | @here i cs places more ih =>
    intro before hlength
    have hrest := ih (before ++ p) (by rw [List.length_append, hlength])
    rw [List.append_assoc, byteCount_append, ← length_bytes p] at hrest
    rw [bytes_append, List.map_cons, List.take_left' hlength]
    exact .here hrest
  | @there i c cs places hnot _ ih =>
    intro before hlength
    have hrest := ih (before ++ [c]) (by rw [List.length_append, hlength]; rfl)
    rw [List.append_assoc, byteCount_append, byteCount_cons, byteCount_nil, Nat.add_zero,
      ← (encodes_charBytes c).length] at hrest
    refine found_append (fun j hj => ?_) hrest
    rcases Nat.eq_zero_or_pos j with rfl | hpos
    · exact fun hprefix => hnot (bytes_prefix_iff.1 hprefix)
    · exact not_prefix_inside hp hpos hj _

/-- A text from a byte on, with as many bytes as are given replaced at some later ones.  There is none where a
part would end before it begins, or would cut a character. -/
def spliceBytes? (width : Nat) (r cs : List Char) : (last : Nat) → (places : List Nat) → Option (List Char)
  | last, [] => slice? last (byteCount cs) cs
  | last, i :: places =>
    if last ≤ i then do
      let piece ← slice? last i cs
      let rest ← spliceBytes? width r cs (i + width) places
      some (piece ++ (r ++ rest))
    else none

theorem slice?_stretch {a b : Nat} (cs : List Char) (h : a ≤ b) :
    slice? (byteCount (cs.take a)) (byteCount (cs.take b)) cs = some (Slice.stretch cs a b) := by
  have hslice := slice?_append (cs.take a) (Slice.stretch cs a b) (cs.drop b)
  rwa [Slice.take_append_stretch_append_drop cs h, Slice.take_append_stretch cs h] at hslice

theorem slice?_drop (cs : List Char) (a : Nat) :
    slice? (byteCount (cs.take a)) (byteCount cs) cs = some (cs.drop a) := by
  have hslice := slice?_append (cs.take a) (cs.drop a) []
  rwa [List.append_nil, List.take_append_drop] at hslice

theorem byteCount_take_le {a b : Nat} (cs : List Char) (h : a ≤ b) :
    byteCount (cs.take a) ≤ byteCount (cs.take b) := by
  rw [← Slice.take_append_stretch cs h, byteCount_append]
  exact Nat.le_add_right _ _

theorem spliceBytes?_eq_some {last : Nat} {places : List Nat} (r : List Char) (h : Apart p cs places)
    (hlast : ∀ i ∈ places, last ≤ i) :
    spliceBytes? (byteCount p) r cs (byteCount (cs.take last)) (places.map fun i => byteCount (cs.take i)) =
      some (spliceFrom p.length r cs last places) := by
  induction places generalizing last with
  | nil => exact slice?_drop cs last
  | cons i places ih =>
    have hbehind := ih (h.sublist (List.sublist_cons_self i places)) (List.pairwise_cons.1 h.pairwise).1
    have hle : last ≤ i := hlast i (.head _)
    obtain ⟨rest, hrest⟩ := h.stands i (.head _)
    have hwidth : byteCount (cs.take (i + p.length)) = byteCount (cs.take i) + byteCount p := by
      rw [List.take_add, ← hrest, List.take_left, byteCount_append]
    rw [hwidth] at hbehind
    rw [List.map_cons, spliceBytes?, if_pos (byteCount_take_le cs hle), slice?_stretch cs hle, hbehind]
    rfl

end Bytes

section Beginnings

variable {c : Char} {cs p : List Char} {i limit : Nat}

theorem utf8ByteSize_ofList (cs : List Char) : (String.ofList cs).utf8ByteSize = byteCount cs := by
  induction cs with
  | nil => rfl
  | cons c cs ih =>
    rw [String.ofList_cons, String.utf8ByteSize_append, String.utf8ByteSize_singleton, ih, byteCount_cons]

theorem utf8ByteSize_eq (s : String) : s.utf8ByteSize = byteCount s.toList := by
  rw [← utf8ByteSize_ofList, String.ofList_toList]

theorem slice?_isPrefix (h : p.IsPrefix cs) : slice? 0 (byteCount p) cs = some p := by
  obtain ⟨rest, rfl⟩ := h
  exact slice?_append [] p rest

theorem takeBytes_cons (h : c.utf8Size ≤ limit) :
    takeBytes limit (c :: cs) = c :: takeBytes (limit - c.utf8Size) cs := by
  rw [takeBytes, if_pos h]

theorem takeBytes_cons_of_lt (h : limit < c.utf8Size) : takeBytes limit (c :: cs) = [] := by
  rw [takeBytes, if_neg (Nat.not_le.2 h)]

theorem takeBytes_isPrefix (limit : Nat) (cs : List Char) : (takeBytes limit cs).IsPrefix cs := by
  induction cs generalizing limit with
  | nil => exact List.nil_prefix
  | cons c cs ih =>
    by_cases h : c.utf8Size ≤ limit
    · rw [takeBytes_cons h]
      exact List.cons_prefix_cons.2 ⟨rfl, ih _⟩
    · rw [takeBytes_cons_of_lt (Nat.not_le.1 h)]
      exact List.nil_prefix

theorem byteCount_takeBytes_le (limit : Nat) (cs : List Char) : byteCount (takeBytes limit cs) ≤ limit := by
  induction cs generalizing limit with
  | nil => exact Nat.zero_le _
  | cons c cs ih =>
    by_cases h : c.utf8Size ≤ limit
    · have hrest := ih (limit - c.utf8Size)
      rw [takeBytes_cons h, byteCount_cons]
      omega
    · rw [takeBytes_cons_of_lt (Nat.not_le.1 h)]
      exact Nat.zero_le _

theorem isPrefix_takeBytes (h : p.IsPrefix cs) (hp : byteCount p ≤ limit) : p.IsPrefix (takeBytes limit cs) := by
  induction p generalizing limit cs with
  | nil => exact List.nil_prefix
  | cons c p ih =>
    obtain ⟨rest, rfl⟩ := h
    rw [byteCount_cons] at hp
    rw [List.cons_append, takeBytes_cons (by omega)]
    exact List.cons_prefix_cons.2 ⟨rfl, ih ⟨rest, rfl⟩ (by omega)⟩

theorem takeBytes_eq_self (h : byteCount cs ≤ limit) : takeBytes limit cs = cs :=
  (takeBytes_isPrefix limit cs).eq_of_length_le (isPrefix_takeBytes List.prefix_rfl h).length_le

theorem takeBytes_eq {fewer : Nat} (hle : fewer ≤ limit) (h : byteCount (takeBytes limit cs) ≤ fewer) :
    takeBytes fewer cs = takeBytes limit cs := by
  have hshorter := isPrefix_takeBytes (takeBytes_isPrefix fewer cs)
    (Nat.le_trans (byteCount_takeBytes_le fewer cs) hle)
  exact hshorter.eq_of_length_le (isPrefix_takeBytes (takeBytes_isPrefix limit cs) h).length_le

theorem lt_byteCount_takeBytes {rest : List Char} (h : takeBytes limit cs ++ c :: rest = cs) :
    limit < byteCount (takeBytes limit cs ++ [c]) := by
  by_contra hle
  have hlonger : (takeBytes limit cs ++ [c]).IsPrefix cs := ⟨rest, by rwa [List.append_assoc]⟩
  have hlength := (isPrefix_takeBytes hlonger (Nat.not_lt.1 hle)).length_le
  rw [List.length_append] at hlength
  exact Nat.not_succ_le_self _ hlength

def isBoundary (bs : List Nat) (i : Nat) : Bool :=
  i == 0 ||
    match bs[i]? with
    | some b => !isTail b
    | none => i == bs.length

theorem isBoundary_inside (hpos : 0 < i) (hlt : i < c.utf8Size) : isBoundary (bytes (c :: cs)) i = false := by
  obtain ⟨b, tail, hchar, -, htail⟩ := (encodes_charBytes c).exists_cons
  have hlength := (encodes_charBytes c).length
  obtain ⟨i, rfl⟩ := Nat.exists_eq_succ_of_ne_zero hpos.ne'
  rw [hchar, List.length_cons] at hlength
  have hi : i < tail.length := by omega
  rw [isBoundary, bytes_cons, hchar, List.cons_append, List.getElem?_cons_succ,
    List.getElem?_append_left hi, List.getElem?_eq_getElem hi]
  simp [htail _ (List.getElem_mem hi)]

theorem isBoundary_behind : isBoundary (bytes (c :: cs)) (c.utf8Size + i) = isBoundary (bytes cs) i := by
  have hlength := (encodes_charBytes c).length
  have hpos := c.utf8Size_pos
  rw [isBoundary, isBoundary, bytes_cons, ← hlength, List.getElem?_append_right (Nat.le_add_right _ _),
    Nat.add_sub_cancel_left, List.length_append]
  cases i with
  | zero =>
    cases cs with
    | nil => simp [bytes]
    | cons d ds =>
      obtain ⟨b, rest, hbytes, hb⟩ := exists_bytes (List.cons_ne_nil d ds)
      simp [hbytes, hb]
  | succ i =>
    have hfirst : ((charBytes c).length + (i + 1) == 0) = false := by simp
    have hlast : ((charBytes c).length + (i + 1) == (charBytes c).length + (bytes cs).length) =
        (i + 1 == (bytes cs).length) := by simp
    rw [hfirst, hlast]
    rfl

theorem isBoundary_iff (cs : List Char) (i : Nat) :
    isBoundary (bytes cs) i = true ↔ byteCount (takeBytes i cs) = i := by
  induction cs generalizing i with
  | nil =>
    have hempty : isBoundary (bytes []) i = (i == 0 || i == 0) := rfl
    rw [hempty, Bool.or_self, beq_iff_eq]
    exact eq_comm
  | cons c cs ih =>
    have hpos := c.utf8Size_pos
    by_cases h : c.utf8Size ≤ i
    · obtain ⟨i, rfl⟩ := Nat.exists_eq_add_of_le h
      rw [isBoundary_behind, ih, takeBytes_cons h, Nat.add_sub_cancel_left, byteCount_cons,
        Nat.add_right_inj]
    · rw [takeBytes_cons_of_lt (Nat.not_le.1 h), byteCount_nil]
      rcases Nat.eq_zero_or_pos i with rfl | hi
      · simp [isBoundary]
      · rw [isBoundary_inside hi (Nat.not_le.1 h)]
        exact iff_of_false Bool.false_ne_true hi.ne

def stepBack (bs : List Nat) (i : Nat) : Option (Turn Nat Nat) :=
  if isBoundary bs i then some (.done i)
  else
    match i with
    | 0 => none
    | i + 1 => some (.next i)

/-- Stepping back ends where the longest beginning does that has not more bytes. -/
theorem ends_stepBack (cs : List Char) (i : Nat) :
    Turn.Ends (stepBack (bytes cs)) i (byteCount (takeBytes i cs)) := by
  refine Turn.ends_of_kept id (fun i => byteCount (takeBytes i cs)) (fun i => ?_) i
  by_cases h : isBoundary (bytes cs) i = true
  · left
    rw [(isBoundary_iff cs i).1 h]
    exact if_pos h
  · right
    cases i with
    | zero => exact absurd rfl h
    | succ i =>
      have hne := mt (isBoundary_iff cs (i + 1)).2 h
      have hlt := Nat.lt_of_le_of_ne (byteCount_takeBytes_le (i + 1) cs) hne
      have hsame := takeBytes_eq (Nat.le_succ i) (Nat.le_of_lt_succ hlt)
      exact ⟨i, if_neg h, congrArg byteCount hsame, Nat.lt_succ_self i⟩

end Beginnings

end PrimScript.Text
