import PrimScript.Clock.Span
import PrimScript.Key
import PrimScript.Settings.Basic

/-! What surrounds a world and is not of its making: files, chance, fresh keys, the network and the clock. -/

namespace PrimScript

namespace Key

theorem digitChar_hex : ∀ d < 16, Decimal.isHexDigit (Nat.digitChar d) ∧
    (Nat.digitChar d).toLower = Nat.digitChar d := by decide

theorem wellFormedFrom_hexDigits {i width : Nat} (h : ∀ k < width, hyphenAt (i + k) = false) (n : Nat)
    (rest : List Char) :
    wellFormedFrom i (hexDigits width n ++ rest) = wellFormedFrom (i + width) rest := by
  induction width generalizing n rest with
  | zero => rfl
  | succ width ih =>
    have hd := (digitChar_hex (n % 16) (Nat.mod_lt _ (by decide))).1
    rw [hexDigits, List.append_assoc, ih fun k hk => h k (Nat.lt_succ_of_lt hk)]
    simp [wellFormedFrom, h width (Nat.lt_succ_self _), hd, Nat.add_assoc]

theorem map_toLower_hexDigits (width n : Nat) :
    (hexDigits width n).map Char.toLower = hexDigits width n := by
  induction width generalizing n with
  | zero => rfl
  | succ width ih =>
    have hd := (digitChar_hex (n % 16) (Nat.mod_lt _ (by decide))).2
    simp [hexDigits, ih, hd]

theorem isCanonical_fresh (n : Nat) : isCanonical (fresh n) := by
  have dash (i : Nat) (hi : hyphenAt i = true) (cs : List Char) :
      wellFormedFrom i ('-' :: cs) = wellFormedFrom (i + 1) cs := by simp [wellFormedFrom, hi]
  have digit (i : Nat) (hi : hyphenAt i = false) (c : Char) (hc : Decimal.isHexDigit c)
      (cs : List Char) : wellFormedFrom i (c :: cs) = wellFormedFrom (i + 1) cs := by
    simp [wellFormedFrom, hi, hc]
  have last : wellFormedFrom 24 (hexDigits 12 n) = wellFormedFrom 36 [] := by
    simpa using wellFormedFrom_hexDigits (i := 24) (by decide) n []
  rw [isCanonical, Bool.and_eq_true, isValid, fresh, String.toList_ofList, decide_eq_true_eq]
  constructor
  · simp only [List.append_assoc, List.cons_append]
    rw [wellFormedFrom_hexDigits (by decide), dash _ rfl, wellFormedFrom_hexDigits (by decide),
      dash _ rfl, digit _ rfl _ rfl, wellFormedFrom_hexDigits (by decide), dash _ rfl,
      digit _ rfl _ rfl, wellFormedFrom_hexDigits (by decide), dash _ rfl, last]
    rfl
  · simp [map_toLower_hexDigits]

theorem fresh_ne_null (n : Nat) : fresh n ≠ null := by
  intro h
  have h9 := congrArg (·.toList[9]?) h
  simp [fresh, null, hexDigits] at h9

end Key

structure KeySupply where
  key : Nat → String
  canonical : ∀ n, Key.isCanonical (key n)
  ne_null : ∀ n, key n ≠ Key.null

def KeySupply.counted : KeySupply := ⟨Key.fresh, Key.isCanonical_fresh, Key.fresh_ne_null⟩

structure HttpRequest where
  address : String
  method : String
  mimeType : String
  body : String

def HttpRequest.get (address : String) : HttpRequest :=
  ⟨address, "GET", "text/plain;charset=utf-8", ""⟩

structure Surroundings where
  /-- The files of the notecard folder. -/
  folder : NameMap String
  keys : KeySupply
  /-- The numbers drawn, from zero up to one. -/
  draws : Nat → Float
  /-- What comes of a request made with so many keys given out: how many milliseconds the reply takes, and
  the reply. -/
  network : Nat → HttpRequest → Nat × HttpReply
  /-- What the clock of the machine shows at the start, in nanoseconds. -/
  uptime : Nat

namespace Surroundings

def seed : Nat → Nat
  | 0 => 1
  | n + 1 => (seed n * 6364136223846793005 + 1442695040888963407) % Nat.pow 2 64

/-- No network, and chance as it comes of one seed. -/
def plain (folder : NameMap String) : Surroundings where
  folder := folder
  keys := .counted
  draws n := (seed (n + 1) / Nat.pow 2 11).toFloat / 9007199254740992
  network _ _ := (0, ⟨499, "no network"⟩)
  uptime := 0

end Surroundings

end PrimScript
