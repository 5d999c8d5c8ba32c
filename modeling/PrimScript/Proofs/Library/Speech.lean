import PrimScript.Proofs.Library.Computes
import PrimScript.Proofs.Text.Utf8

/-! What is said is cut.  Whatever function a text is said with, and in whatever world, the longest beginning of it
is delivered that has no more bytes than may be said.  It is found by stepping back from the last byte that may be
said to the first place that is not inside of a character. -/

namespace PrimScript.Library

open Text

section Cut

variable (s : String)

theorem toList_cut : (cut s.toList).toList = takeBytes chatLimit s.toList := String.toList_ofList

theorem utf8ByteSize_cut : (cut s.toList).utf8ByteSize = byteCount (takeBytes chatLimit s.toList) :=
  utf8ByteSize_ofList _

/-- The longest beginning of a text whose characters have at most so many bytes. -/
structure LongestWithin (limit : Nat) (s said : String) : Prop where
  isPrefix : said.toList.IsPrefix s.toList
  fits : said.utf8ByteSize ≤ limit
  longest : ∀ p : String, p.toList.IsPrefix s.toList → p.utf8ByteSize ≤ limit →
    p.toList.IsPrefix said.toList

theorem longestWithin_cut : LongestWithin chatLimit s (cut s.toList) where
  isPrefix := by
    rw [toList_cut]
    exact takeBytes_isPrefix _ _
  fits := by
    rw [utf8ByteSize_cut]
    exact byteCount_takeBytes_le _ _
  longest p hprefix hfits := by
    rw [utf8ByteSize_eq p] at hfits
    rw [toList_cut]
    exact isPrefix_takeBytes hprefix hfits

theorem cut_of_fits (h : s.utf8ByteSize ≤ chatLimit) : cut s.toList = s := by
  rw [utf8ByteSize_eq] at h
  rw [cut, takeBytes_eq_self h, String.ofList_toList]

theorem exists_next_of_lt (h : chatLimit < s.utf8ByteSize) : ∃ c rest,
    s.toList = (cut s.toList).toList ++ c :: rest ∧ chatLimit < (cut s.toList).utf8ByteSize + c.utf8Size := by
  obtain ⟨rest, hrest⟩ := takeBytes_isPrefix chatLimit s.toList
  have hfits := byteCount_takeBytes_le chatLimit s.toList
  cases rest with
  | nil =>
    rw [List.append_nil] at hrest
    rw [hrest, ← utf8ByteSize_eq] at hfits
    exact absurd h (Nat.not_lt.2 hfits)
  | cons c rest =>
    refine ⟨c, rest, by rw [toList_cut, hrest], ?_⟩
    rw [utf8ByteSize_cut]
    exact lt_of_lt_of_eq (lt_byteCount_takeBytes hrest) (byteCount_append _ [c])

theorem exists_stop : ∃ stop, Turn.Ends (stepBack (bytes s.toList)) chatLimit stop ∧
    isBoundary (bytes s.toList) stop = true ∧ slice? 0 stop s.toList = some (cut s.toList).toList := by
  have hprefix := takeBytes_isPrefix chatLimit s.toList
  have hstop := takeBytes_eq (byteCount_takeBytes_le chatLimit s.toList) (Nat.le_refl _)
  refine ⟨_, ends_stepBack s.toList chatLimit, (isBoundary_iff _ _).2 (congrArg byteCount hstop), ?_⟩
  rw [toList_cut]
  exact slice?_isPrefix hprefix

end Cut

/-- Called with the arguments, the function of the name sends the message that the object has for it, and does
nothing else. -/
def Sends (name : String) (args : List Value) (message : Object → ChatMessage) : Prop :=
  ∃ f, find? name = some f ∧ ∀ detected w,
    f.run ⟨name, args, detected⟩ w = (.void, { w with chat := w.chat.push (message w.object) })

structure DeliveredAs (s said : String) : Prop where
  say : ∀ channel, Sends "llSay" [.integer channel, .string s] fun o => ⟨channel, o.name, said, .say, none⟩
  shout : ∀ channel,
    Sends "llShout" [.integer channel, .string s] fun o => ⟨channel, o.name, said, .shout, none⟩
  whisper : ∀ channel,
    Sends "llWhisper" [.integer channel, .string s] fun o => ⟨channel, o.name, said, .whisper, none⟩
  regionSay : ∀ channel,
    Sends "llRegionSay" [.integer channel, .string s] fun o => ⟨channel, o.name, said, .region, none⟩
  regionSayTo : ∀ target channel, Sends "llRegionSayTo" [.key target, .integer channel, .string s]
    fun o => ⟨channel, o.name, said, .direct, some (Key.normalize target)⟩
  ownerSay : Sends "llOwnerSay" [.string s]
    fun o => ⟨0, o.name, said, .direct, some (Key.normalize o.ownerKey)⟩
  instantMessage : ∀ target, Sends "llInstantMessage" [.key target, .string s]
    fun o => ⟨0, o.name, said, .direct, some (Key.normalize target)⟩

theorem tell_string (w : World) (target : String) (channel : Int32) (text : String) :
    (Reply.void, w.tell (String.ofList target.toList) channel text) = (.void, { w with
      chat := w.chat.push ⟨channel, w.object.name, text, .direct, some (Key.normalize target)⟩ }) := by
  rw [String.ofList_toList]
  rfl

theorem deliveredAs_cut (s : String) : DeliveredAs s (cut s.toList) where
  say _ := ⟨_, by rfl, fun _ _ => rfl⟩
  shout _ := ⟨_, by rfl, fun _ _ => rfl⟩
  whisper _ := ⟨_, by rfl, fun _ _ => rfl⟩
  regionSay _ := ⟨_, by rfl, fun _ _ => rfl⟩
  regionSayTo target channel := ⟨_, by rfl, fun _ w => tell_string w target channel _⟩
  ownerSay := ⟨_, by rfl, fun _ _ => rfl⟩
  instantMessage target := ⟨_, by rfl, fun _ w => tell_string w target 0 _⟩

/-- What is delivered of a text, whatever it is said with, is its longest beginning of at most 1024 bytes: the
text itself when it is not longer, and otherwise one that the next character does not fit behind.  The search
for its end does not fail: it stops between two characters. -/
theorem speech_longest (s : String) : ∃ said : String,
    DeliveredAs s said ∧ LongestWithin 1024 s said ∧ (s.utf8ByteSize ≤ 1024 → said = s) ∧
    (1024 < s.utf8ByteSize → ∃ c rest,
      s.toList = said.toList ++ c :: rest ∧ 1024 < said.utf8ByteSize + c.utf8Size) ∧
    ∃ stop, Turn.Ends (stepBack (bytes s.toList)) 1024 stop ∧
      isBoundary (bytes s.toList) stop = true ∧ slice? 0 stop s.toList = some said.toList :=
  ⟨cut s.toList, deliveredAs_cut s, longestWithin_cut s, cut_of_fits s, exists_next_of_lt s, exists_stop s⟩

end PrimScript.Library
