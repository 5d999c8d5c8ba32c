import PrimScript.Eval.Basic
import PrimScript.Proofs.Library.Within
import PrimScript.Proofs.Text.Search
import PrimScript.Proofs.World.Answers

/-! Requests and their answers.  A function that asks for an answer gives a fresh key and puts off the one
event that tells it, or it reports an argument that is not valid and puts off nothing.  All other
functions leave the answers alone. -/

namespace PrimScript

namespace World

def Harmless (name : String) : Prop :=
  '/' ∉ name.toList ∧ '\\' ∉ name.toList ∧ ¬ ['.', '.'].IsInfix name.toList

/-- The lines of a notecard.  The settings come before the files, and a file of that very name before one with
`.txt` after it. -/
inductive Notecard (w : World) (name : String) : List String → Prop
  | given {lines : List String} : w.settings.notecards.find? name = some lines → Notecard w name lines
  | file {text : String} :
    w.settings.notecards.find? name = none → Harmless name → w.around.folder.find? name = some text →
      Notecard w name ((Text.lines text.toList).map String.ofList)
  | textFile {text : String} :
    w.settings.notecards.find? name = none → Harmless name → w.around.folder.find? name = none →
      w.around.folder.find? (name ++ ".txt") = some text →
      Notecard w name ((Text.lines text.toList).map String.ofList)

inductive Named (w : World) (key : String) : String → Prop
  | object : Key.normalize key = w.object.key → Named w key w.object.name
  | owner :
    Key.normalize key ≠ w.object.key → Key.normalize key = w.object.ownerKey → Named w key w.object.ownerName
  | entity {e : Entity} :
    Key.normalize key ≠ w.object.key → Key.normalize key ≠ w.object.ownerKey →
      w.region.entity? key = some e → Named w key e.name
  | stranger :
    Key.normalize key ≠ w.object.key → Key.normalize key ≠ w.object.ownerKey →
      w.region.entity? key = none → Named w key ""

end World

/-- The line with a number, which is the end of the notecard where there is none. -/
inductive LineOf (lines : List String) (i : Int) : String → Prop
  | line {before after : List String} {text : String} :
    lines = before ++ text :: after → before.length = i → LineOf lines i text
  | none : (∀ n < lines.length, (n : Int) ≠ i) → LineOf lines i "\n\n\n"

/-- What is told of an agent with a name: whether it is known, its name, and what is the same for all. -/
inductive AgentData (name : String) : Int → String → Prop
  | known : name ≠ "" → AgentData name 1 "1"
  | unknown : name = "" → AgentData name 1 "0"
  | name : AgentData name 2 name
  | born : AgentData name 3 "2006-01-01"
  | rating : AgentData name 4 "0,0,0,0,0,0"
  | payment : AgentData name 8 "0"

def Settings.delayOf (s : Settings) : EventKind → Nat
  | .httpResponse => s.requests.latency
  | _ => s.answerDelay

namespace Called

def gives (r : Called) : Value :=
  match r.reply with
  | .value v => v.coerce .key
  | _ => .zero .key

def key? (r : Called) : Option String :=
  match r.gives with
  | .key id => if id = Key.null then none else some id
  | _ => none

/-- The kind of the event that answers a call, and what it tells besides the key. -/
inductive Tells (r : Called) : EventKind → List Value → Prop
  | reply {reply : HttpReply} :
    r.call.name = "llHTTPRequest" →
      r.world.settings.requests.replies.find? (r.call.string 0) = some reply →
      Tells r .httpResponse [.integer reply.status, .list [], .string reply.body]
  | noReply :
    r.call.name = "llHTTPRequest" →
      r.world.settings.requests.replies.find? (r.call.string 0) = none →
      Tells r .httpResponse [.integer 404, .list [], .string "Not Found"]
  | line {lines : List String} {text : String} :
    r.call.name = "llGetNotecardLine" → r.world.Notecard (r.call.string 0) lines →
      LineOf lines (r.call.integer 1).toInt text → Tells r .dataserver [.string text]
  | noLine :
    r.call.name = "llGetNotecardLine" → (∀ lines, ¬ r.world.Notecard (r.call.string 0) lines) →
      Tells r .dataserver [.string "\n\n\n"]
  | number {lines : List String} :
    r.call.name = "llGetNumberOfNotecardLines" → r.world.Notecard (r.call.string 0) lines →
      Tells r .dataserver [.string (toString lines.length)]
  | noNumber :
    r.call.name = "llGetNumberOfNotecardLines" → (∀ lines, ¬ r.world.Notecard (r.call.string 0) lines) →
      Tells r .dataserver [.string "\n\n\n"]
  | agent {name text : String} :
    r.call.name = "llRequestAgentData" → r.world.Named (r.call.string 0) name →
      AgentData name (r.call.integer 1).toInt text → Tells r .dataserver [.string text]

def told? (r : Called) : Option (EventKind × List Value) :=
  let w := r.world
  let c := r.call
  if c.name = "llHTTPRequest" then
    let reply := (w.settings.requests.replies.find? (c.string 0)).getD ⟨404, "Not Found"⟩
    some (.httpResponse, [.integer reply.status, .list [], .string reply.body])
  else if c.name = "llGetNotecardLine" then
    let lines := (w.notecard? (c.string 0)).getD []
    some (.dataserver, [.string (Library.lineAt lines (c.integer 1))])
  else if c.name = "llGetNumberOfNotecardLines" then
    let number := (w.notecard? (c.string 0)).map fun lines =>
      String.ofList (Decimal.integerText lines.length)
    some (.dataserver, [.string (number.getD Constant.endOfNotecard)])
  else if c.name = "llRequestAgentData" then
    (Library.agentData? (w.nameOf (c.string 0)) (c.integer 1)).map fun text =>
      (.dataserver, [.string text])
  else none

def answerOf (r : Called) (id : String) (kind : EventKind) (args : List Value) : Answer :=
  ⟨r.world.now + Span.ofMillis (r.world.settings.delayOf kind), .ofKind kind (.key id :: args),
    r.world.looping⟩

def answerAs? (r : Called) (id : String) : Option Answer :=
  r.told?.map fun (kind, args) => r.answerOf id kind args

def answer? (r : Called) : Option Answer := r.key?.bind r.answerAs?

/-- What the caller hears when it asks: a fresh key, which is answered, or that an argument is not
valid. -/
def Heard (r : Called) : Prop :=
  (∃ a, r.key? = some (r.world.around.keys.key r.world.keysGiven) ∧ r.answer? = some a) ∨
    ∃ reason, r.reply = .invalid reason ∧ r.key? = none ∧ r.told? = none

/-- The answer to a call is the one to its own request, under the key it has given. -/
def Answered (r : Called) (a : Answer) : Prop :=
  ∃ id kind args, r.key? = some id ∧ r.Tells kind args ∧ a = r.answerOf id kind args

end Called

section Tells

variable {w : World} {name : String}

theorem World.notecard?_eq_some_iff {lines : List String} :
    w.notecard? name = some lines ↔ w.Notecard name lines := by
  have barred : ((name.toList.contains '/' || name.toList.contains '\\' ||
      (Text.indexOf? ['.', '.'] name.toList).isSome) = true) ↔ ¬ Harmless name := by
    rw [Harmless, Bool.or_eq_true, Bool.or_eq_true, Text.isSome_indexOf?_iff]
    simp [or_iff_not_imp_left]
  unfold notecard?
  constructor
  · intro h
    split at h
    · next lines' hs =>
      cases h
      exact .given hs
    · next hs =>
      dsimp only at h
      split at h
      · cases h
      · next hb =>
        rw [barred, not_not] at hb
        obtain ⟨text, ht, rfl⟩ := Option.map_eq_some_iff.1 h
        cases hf : w.around.folder.find? name with
        | some text' =>
          rw [hf, Option.some_or, Option.some.injEq] at ht
          exact .file hs hb (hf.trans (congrArg some ht))
        | none =>
          rw [hf, Option.none_or] at ht
          exact .textFile hs hb hf ht
  · rintro (hs | ⟨hs, hb, hf⟩ | ⟨hs, hb, hf, ht⟩)
    · rw [hs]
    · rw [hs, hf]
      exact if_neg (mt barred.1 (not_not.2 hb))
    · rw [hs, hf, ht]
      exact if_neg (mt barred.1 (not_not.2 hb))

theorem World.notecard?_eq_none_iff :
    w.notecard? name = none ↔ ∀ lines, ¬ w.Notecard name lines := by
  simp only [Option.eq_none_iff_forall_ne_some, ne_eq, notecard?_eq_some_iff]

theorem World.nameOf_eq_iff {key : String} : w.nameOf key = name ↔ w.Named key name := by
  have hk : w.region.entity? (Key.normalize key) = w.region.entity? key := by
    rw [Region.entity?, Region.entity?, Key.normalize_of_isCanonical (Key.isCanonical_normalize key)]
  unfold nameOf
  dsimp only
  rw [hk]
  constructor
  · rintro rfl
    split
    · next ho => exact .object ho
    · next ho =>
      split
      · next hw => exact .owner ho hw
      · next hw =>
        cases he : w.region.entity? key with
        | some e => exact .entity ho hw he
        | none => exact .stranger ho hw he
  · rintro (ho | ⟨ho, hw⟩ | ⟨ho, hw, he⟩ | ⟨ho, hw, he⟩)
    · rw [if_pos ho]
    · rw [if_neg ho, if_pos hw]
    · rw [if_neg ho, if_neg hw, he, Option.map_some, Option.getD_some]
    · rw [if_neg ho, if_neg hw, he, Option.map_none, Option.getD_none]

theorem Library.lineAt_eq_iff {lines : List String} {i : Int32} {text : String} :
    lineAt lines i = text ↔ LineOf lines i.toInt text := by
  have negative : i < 0 ↔ i.toInt < 0 := by rw [Int32.lt_iff_toInt_lt, Int32.toInt_zero]
  unfold lineAt
  rw [if_congr negative rfl rfl]
  generalize i.toInt = i
  constructor
  · rintro rfl
    split
    · next h => exact .none fun n _ hn => by omega
    · next h =>
      obtain ⟨n, rfl⟩ := Int.eq_ofNat_of_zero_le (Int.not_lt.1 h)
      rw [Int.toNat_natCast]
      cases hl : lines[n]? with
      | none =>
        refine .none fun m hm hmn => Nat.not_lt_of_le (List.getElem?_eq_none_iff.1 hl) ?_
        rwa [← Int.ofNat_inj.1 hmn]
      | some text =>
        obtain ⟨hlt, rfl⟩ := List.getElem?_eq_some_iff.1 hl
        have hcut : lines = lines.take n ++ lines[n] :: lines.drop (n + 1) := by
          rw [← List.drop_eq_getElem_cons, List.take_append_drop]
        exact .line hcut (by rw [List.length_take_of_le (Nat.le_of_lt hlt)])
  · rintro (⟨rfl, rfl⟩ | h)
    · rw [if_neg (by omega), Int.toNat_natCast, List.getElem?_append_right (Nat.le_refl _), Nat.sub_self]
      rfl
    · split
      · rfl
      · next hi =>
        have hlong : lines.length ≤ i.toNat := by
          by_contra hlt
          exact h i.toNat (by omega) (by omega)
        rw [List.getElem?_eq_none hlong]
        rfl

theorem Library.lineAt_nil (i : Int32) : lineAt [] i = "\n\n\n" :=
  lineAt_eq_iff.2 (.none fun n hn => absurd hn (Nat.not_lt_zero n))

theorem Library.agentData?_eq_some_iff {question : Int32} {text : String} :
    agentData? name question = some text ↔ AgentData name question.toInt text := by
  constructor
  · unfold agentData?
    intro h
    split at h
    · next hq =>
      subst hq
      cases h
      split
      · next hn => exact .unknown hn
      · next hn => exact .known hn
    · split at h
      · next hq => cases hq; cases h; exact .name
      · split at h
        · next hq => cases hq; cases h; exact .born
        · split at h
          · next hq => cases hq; cases h; exact .rating
          · split at h
            · next hq => cases hq; cases h; exact .payment
            · cases h
  · intro h
    generalize hq : question.toInt = n at h
    have is {k : Int32} (hk : question.toInt = k.toInt) : question = k := Int32.toInt_inj.1 hk
    cases h with
    | known hn => rw [is (k := 1) hq]; simp [agentData?, hn]
    | unknown hn => rw [is (k := 1) hq]; simp [agentData?, hn]
    | name => rw [is (k := 2) hq]; rfl
    | born => rw [is (k := 3) hq]; rfl
    | rating => rw [is (k := 4) hq]; rfl
    | payment => rw [is (k := 8) hq]; rfl

theorem Called.told?_eq_some_iff {r : Called} {kind : EventKind} {args : List Value} :
    r.told? = some (kind, args) ↔ r.Tells kind args := by
  constructor
  · unfold told?
    intro h
    dsimp only at h
    split at h
    · next hn =>
      cases hf : r.world.settings.requests.replies.find? (r.call.string 0) with
      | some reply =>
        rw [hf] at h
        cases h
        exact .reply hn hf
      | none =>
        rw [hf] at h
        cases h
        exact .noReply hn hf
    · split at h
      · next hn =>
        cases hc : r.world.notecard? (r.call.string 0) with
        | some lines =>
          rw [hc] at h
          cases h
          exact .line hn (World.notecard?_eq_some_iff.1 hc) (Library.lineAt_eq_iff.1 rfl)
        | none =>
          rw [hc] at h
          cases h
          rw [Option.getD_none, Library.lineAt_nil]
          exact .noLine hn (World.notecard?_eq_none_iff.1 hc)
      · split at h
        · next hn =>
          cases hc : r.world.notecard? (r.call.string 0) with
          | some lines =>
            rw [hc] at h
            cases h
            exact .number hn (World.notecard?_eq_some_iff.1 hc)
          | none =>
            rw [hc] at h
            cases h
            exact .noNumber hn (World.notecard?_eq_none_iff.1 hc)
        · split at h
          · next hn =>
            obtain ⟨text, ht, hk⟩ := Option.map_eq_some_iff.1 h
            cases hk
            exact .agent hn (World.nameOf_eq_iff.1 rfl) (Library.agentData?_eq_some_iff.1 ht)
          · cases h
  · intro h
    cases h with
    | reply hn hf => simp [told?, hn, hf]
    | noReply hn hf => simp [told?, hn, hf]
    | line hn hc hl => simp [told?, hn, World.notecard?_eq_some_iff.2 hc, Library.lineAt_eq_iff.2 hl]
    | noLine hn hc =>
      simp [told?, hn, World.notecard?_eq_none_iff.2 hc, Library.lineAt_nil]
    | number hn hc => simp [told?, hn, World.notecard?_eq_some_iff.2 hc]; rfl
    | noNumber hn hc => simp [told?, hn, World.notecard?_eq_none_iff.2 hc]; rfl
    | agent hn hw ha => simp [told?, hn, World.nameOf_eq_iff.2 hw, Library.agentData?_eq_some_iff.2 ha]

theorem Called.answer?_eq_some_iff {r : Called} {a : Answer} : r.answer? = some a ↔ r.Answered a := by
  simp only [answer?, answerAs?, Answered, Option.bind_eq_some_iff, Option.map_eq_some_iff, Prod.exists,
    told?_eq_some_iff]
  constructor
  · rintro ⟨id, hid, kind, args, ht, rfl⟩
    exact ⟨id, kind, args, hid, ht, rfl⟩
  · rintro ⟨id, kind, args, hid, ht, rfl⟩
    exact ⟨id, hid, kind, args, ht, rfl⟩

end Tells

namespace Library

open World

variable {P : Event → Prop} {b : Basis} {k : Nat} {owed : List Answer} {w : World}

theorem hosts_keeps : Hosts (Keeps P) where
  trans h h' _ _ _ hw := h' (h hw)
  alike h _ _ _ hw := hw.alike h
  setTimer h _ _ _ hw := hw.setTimer h
  repeatSweep h _ _ _ hw := hw.repeatSweep h
  cancelSweep _ _ _ _ hw := hw.cancelSweep
  sweep hq _ _ _ hw := hw.accept (by simp [Event.askedAt, isAnswer_sweepEvent]) hq
  refused {w found x} _ _ _ _ hw :=
    have h := hw.refuse .sweep ((sweepEvent found).askedAt w.entered) x
    h.spares { Spares.refl P _ with }
  enqueue w e _ _ he _ _ _ hw := hw.enqueue _ (by rcases he with he | he <;> simp [he, EventKind.isAnswer])

def askingNames : List String := asking.map LibraryFunction.name

theorem name_of_mem_all : ∀ f ∈ all, f ∈ asking ∨ f.name ∉ askingNames := by
  have others : ∀ f ∈ speech ++ time ++ sensing ++ self ++ math ++ texts ++ lists ++ extensions ++
      requests.drop 4, f.name ∉ askingNames := by decide +kernel
  have hall : all = speech ++ time ++ sensing ++ self ++ math ++ texts ++ lists ++
      (asking ++ requests.drop 4) ++ extensions := rfl
  simp only [hall, List.mem_append] at others ⊢
  grind

inductive Asks (w : World) (c : Call) : Reply × World → Prop
  /-- It gives the next fresh key, and puts off the event that tells the answer. -/
  | puts (w' : World) (kind : EventKind) (args : List Value)
      (told : ∀ reply, (Called.mk w c reply).told? = some (kind, args))
      (keeps : ∀ P, Keeps P w.freshKey.2 w') (now : w'.now = w.now)
      (given : w'.keysGiven = w.keysGiven + 1) :
      Asks w c (.value (.key w.freshKey.1),
        w'.answerAfter (w.settings.delayOf kind) (.ofKind kind (.ofKey w.freshKey.1 :: args)))
  | refuses (reason : String) (told : ∀ reply, (Called.mk w c reply).told? = none) :
      Asks w c (.invalid reason, w.freshKey.2)

theorem ofKey_freshKey (w : World) : Value.ofKey w.freshKey.1 = .key w.freshKey.1 :=
  congrArg Value.key (Key.normalize_of_isCanonical (w.around.keys.canonical _))

namespace Asks

variable {c : Call} {reply : Reply} {w' : World}

theorem key?_freshKey (w : World) (c : Call) :
    (Called.mk w c (.value (.key w.freshKey.1))).key? = some w.freshKey.1 := by
  have hn : w.freshKey.1 ≠ Key.null := w.around.keys.ne_null _
  simp [Called.key?, Called.gives, Value.coerce, ofKey_freshKey, hn]

theorem key?_invalid (w : World) (c : Call) (reason : String) :
    (Called.mk w c (.invalid reason)).key? = none := by
  simp [Called.key?, Called.gives, Value.zero]

theorem answer?_freshKey {kind : EventKind} {args : List Value}
    (told : ∀ reply, (Called.mk w c reply).told? = some (kind, args)) :
    (Called.mk w c (.value (.key w.freshKey.1))).answer? =
      some ⟨w.now + Span.ofMillis (w.settings.delayOf kind), .ofKind kind (.key w.freshKey.1 :: args),
        w.looping⟩ := by
  rw [Called.answer?, key?_freshKey, Option.bind_some, Called.answerAs?, told]
  rfl

theorem heard (h : Asks w c (reply, w')) : (Called.mk w c reply).Heard := by
  cases h with
  | puts w' kind args told => exact .inl ⟨_, key?_freshKey w c, answer?_freshKey told⟩
  | refuses reason told => exact .inr ⟨reason, rfl, key?_invalid w c reason, told _⟩

theorem owes (h : Asks w c (reply, w')) (hw : w.Owes P b k owed) :
    w'.Owes P b (w.keysGiven + 1) (owed ++ (Called.mk w c reply).answer?.toList) := by
  have hk : w.freshKey.2.Owes P b k owed := hw.spares { Spares.refl P w with keysGiven := Nat.le_succ _ }
  have hf : w.freshKey.2.Owes P b (w.keysGiven + 1) owed := { hk with given := Nat.le_refl _ }
  cases h with
  | puts w' kind args told keeps now =>
    have ha := (keeps P hf).answerAfter (w.settings.delayOf kind)
      (e := .ofKind kind (.ofKey w.freshKey.1 :: args)) rfl
    rw [answer?_freshKey told, hw.looping, ← ofKey_freshKey]
    rwa [now] at ha
  | refuses reason told =>
    rw [Called.answer?, key?_invalid]
    simpa using hf

end Asks

theorem answer?_of_name {r : Called} (h : r.call.name ∉ askingNames) : r.answer? = none := by
  have hn : r.told? = none := by
    simp only [askingNames, asking, List.map_cons, List.map_nil, List.mem_cons, List.not_mem_nil,
      or_false, not_or] at h
    obtain ⟨h1, h2, h3, h4⟩ := h
    exact (if_neg h1).trans ((if_neg h2).trans ((if_neg h3).trans (if_neg h4)))
  cases hk : r.key? <;> simp [Called.answer?, Called.answerAs?, hk, hn]

theorem linesOrTell_keeps (w : World) (name : String) :
    ∃ w', linesOrTell w name = (w.notecard? name, w') ∧ (∀ P, Keeps P w w') ∧ w'.now = w.now ∧
      w'.settings = w.settings ∧ w'.keysGiven = w.keysGiven := by
  have keeps (P : Event → Prop) := hosts_keeps (P := P).linesOrTell w name
  unfold linesOrTell at keeps ⊢
  split
  · next h =>
    simp only [h] at keeps
    exact ⟨_, by rw [h], keeps, rfl, rfl, rfl⟩
  · next h =>
    simp only [h] at keeps
    exact ⟨_, by rw [h], keeps, rfl, rfl, rfl⟩

variable {c : Call}

theorem address_withOptions (r : HttpRequest) (options : List Value) :
    (withOptions r options).address = r.address := by
  induction r, options using withOptions.induct with
  | case1 r option value rest text r' ih =>
    rw [withOptions, ih]
    dsimp only [r']
    split
    · rfl
    · split <;> rfl
  | case2 r options h => rw [withOptions]; exact h

theorem asks_httpRequest (hn : c.name = httpRequest.name) (hw : w.settings.requests.mode = .stub) :
    Asks w c (httpRequest.run c w) := by
  obtain ⟨request, hr, run⟩ : ∃ request : HttpRequest, request.address = c.string 0 ∧
      httpRequest.run c w = (.value (.key w.freshKey.1),
        w.freshKey.2.answerAfter (replyTo w.freshKey.2 request).1 (.ofKind .httpResponse
          (.ofKey w.freshKey.1 :: [.integer (replyTo w.freshKey.2 request).2.status, .list [],
            .string (replyTo w.freshKey.2 request).2.body]))) :=
    ⟨_, address_withOptions _ _, rfl⟩
  have reply : replyTo w.freshKey.2 request = (w.settings.requests.latency,
      (w.settings.requests.replies.find? (c.string 0)).getD ⟨404, "Not Found"⟩) := by
    have hf : w.freshKey.2.settings.requests.mode = .stub := hw
    rw [replyTo, hr, hf]
    rfl
  rw [run, reply]
  exact .puts _ .httpResponse _ (fun _ => if_pos hn) (fun _ _ _ _ h => h) rfl rfl

theorem asks_answering {w' : World} {text : String} (keeps : ∀ P, Keeps P w.freshKey.2 w')
    (now : w'.now = w.now) (settings : w'.settings = w.settings) (given : w'.keysGiven = w.keysGiven + 1)
    (told : ∀ reply, (Called.mk w c reply).told? = some (.dataserver, [.string text])) :
    Asks w c (answering w' w.freshKey.1 text) := by
  have h := Asks.puts w' .dataserver _ told keeps now given
  rw [← settings] at h
  exact h

theorem asks_getNotecardLine (hn : c.name = getNotecardLine.name) :
    Asks w c (getNotecardLine.run c w) := by
  obtain ⟨w', hl, keeps, now, settings, given⟩ := linesOrTell_keeps w.freshKey.2 (c.string 0)
  have run : getNotecardLine.run c w = answering (linesOrTell w.freshKey.2 (c.string 0)).2 w.freshKey.1
    (lineAt ((linesOrTell w.freshKey.2 (c.string 0)).1.getD []) (c.integer 1)) := rfl
  rw [run, hl]
  refine asks_answering keeps now settings given fun reply => ?_
  exact (if_neg (by rw [hn]; decide)).trans (if_pos hn)

theorem asks_getNumberOfNotecardLines (hn : c.name = getNumberOfNotecardLines.name) :
    Asks w c (getNumberOfNotecardLines.run c w) := by
  obtain ⟨w', hl, keeps, now, settings, given⟩ := linesOrTell_keeps w.freshKey.2 (c.string 0)
  have run : getNumberOfNotecardLines.run c w = answering w' w.freshKey.1
      (((w.freshKey.2.notecard? (c.string 0)).map fun lines =>
        String.ofList (Decimal.integerText lines.length)).getD Constant.endOfNotecard) := by
    simp only [getNumberOfNotecardLines, hl]
    cases w.freshKey.2.notecard? (c.string 0) <;> rfl
  rw [run]
  refine asks_answering keeps now settings given fun reply => ?_
  exact (if_neg (by rw [hn]; decide)).trans ((if_neg (by rw [hn]; decide)).trans (if_pos hn))

theorem asks_requestAgentData (hn : c.name = requestAgentData.name) :
    Asks w c (requestAgentData.run c w) := by
  have told (reply : Reply) : (Called.mk w c reply).told? =
      (agentData? (w.nameOf (c.string 0)) (c.integer 1)).map fun text =>
        (.dataserver, [.string text]) :=
    (if_neg (by rw [hn]; decide)).trans ((if_neg (by rw [hn]; decide)).trans
      ((if_neg (by rw [hn]; decide)).trans (if_pos hn)))
  have named : w.freshKey.2.nameOf (c.string 0) = w.nameOf (c.string 0) := rfl
  cases hd : agentData? (w.nameOf (c.string 0)) (c.integer 1) with
  | some text =>
    have run : requestAgentData.run c w = answering w.freshKey.2 w.freshKey.1 text := by
      simp only [requestAgentData, named, hd]
    rw [run]
    exact asks_answering (fun _ _ _ _ h => h) rfl rfl rfl fun reply => by rw [told, hd]; rfl
  | none =>
    have run : requestAgentData.run c w =
        (.invalid s!"unsupported data request {(c.integer 1).toInt}", w.freshKey.2) := by
      simp only [requestAgentData, named, hd]
    rw [run]
    exact .refuses _ fun reply => by rw [told, hd]; rfl

theorem asks_of_mem {f : LibraryFunction} (hf : f ∈ asking) (hn : c.name = f.name)
    (hw : w.settings.requests.mode = .stub) : Asks w c (f.run c w) := by
  simp only [asking, List.mem_cons, List.not_mem_nil, or_false] at hf
  rcases hf with rfl | rfl | rfl | rfl
  · exact asks_httpRequest hn hw
  · exact asks_getNotecardLine hn
  · exact asks_getNumberOfNotecardLines hn
  · exact asks_requestAgentData hn

section Catalog

variable {f : LibraryFunction} (hf : f ∈ all) (hn : c.name = f.name) (hw : w.Owes P b k owed)
include hf hn hw

theorem heard_of_mem (hc : c.name ∈ askingNames) : (Called.mk w c (f.run c w).1).Heard := by
  rcases name_of_mem_all f hf with hf | hf
  · exact (asks_of_mem hf hn hw.isStub).heard
  · exact absurd (hn ▸ hc) hf

theorem owes_of_mem : ∃ k', k ≤ k' ∧ (c.name ∈ askingNames → w.keysGiven < k') ∧
    (f.run c w).2.Owes P b k' (owed ++ (Called.mk w c (f.run c w).1).answer?.toList) := by
  have asks (hf : f ∈ asking) := (asks_of_mem hf hn hw.isStub).owes hw
  rcases name_of_mem_all f hf with hfa | hna
  · exact ⟨_, Nat.le_succ_of_le hw.given, fun _ => Nat.lt_succ_self _, asks hfa⟩
  · rcases within_all hosts_keeps f hf with hfa | hfw
    · exact ⟨_, Nat.le_succ_of_le hw.given, fun _ => Nat.lt_succ_self _, asks hfa⟩
    · rw [answer?_of_name (r := ⟨w, c, _⟩) (hn ▸ hna), Option.toList_none, List.append_nil]
      exact ⟨k, Nat.le_refl k, fun hc => absurd (hn ▸ hc) hna, hfw c w hw⟩

end Catalog

end Library

end PrimScript
