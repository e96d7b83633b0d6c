import SerialChrono.Library.LateCounter
import SerialChrono.Library.ParseInt
import SerialChrono.Queue.Model
import SerialChrono.Counting

/-!
# The counters on the page (`crono.js`, `web_server.c`, `web_mgr.c`)

The buttons for faults and refusals do not send main a step but the number they read in the field on
the page plus one, and the field is what the last `readData` has brought.  The number waits in
`input_queue` for the web thread, which sends it to main and waits for the answer.

The queue gives out the first message it holds and drops the others, so that it is a box for one
message, and the counter is one that is seen late: `Follows` relates the two, and `presses_counted`
says which presses are counted in the end, if only the `+` button moves the counter.  A press is lost if
another message of the page is still waiting, or if the page does not show yet what main is going to
have.

The web thread is one whose `send` goes well, and main is `mainFront`: the handlers of the other
managers leave the counters alone.
-/

namespace SerialChrono

open CText JsNumber PartialRun LateCounter

/-! ## The buttons -/

/-- `if (n<0) n=0;` -/
def notNegative : Number → Number
  | .whole x => .whole (max 0 x)
  | .infinite true => .whole 0
  | n => n

/-- `if (n>1) n=1;` -/
def notAboveOne : Number → Number
  | .whole x => .whole (min 1 x)
  | .infinite false => .whole 1
  | n => n

/-- `falta`, as the text it sends; `val` is what the field shows. -/
def falta (inc : ℤ) (val : CString) : CString :=
  "fault ".toList ++ numberText (notNegative (incremented inc (parseInt val)))

/-- `rehuse` -/
def rehuse (inc : ℤ) (val : CString) : CString :=
  "refusal ".toList ++ numberText (notNegative (incremented inc (parseInt val)))

/-- `eliminado` -/
def eliminado (inc : ℤ) (val : CString) : CString :=
  "elim ".toList ++ numberText (notAboveOne (notNegative (incremented inc (parseInt val))))

/-! ## From the page to main -/

/-- The page, the queue of the web server and main's configuration. -/
structure PressWorld where
  config : Configuration
  /-- `input_queue` -/
  input : Queue
  /-- The datagram of the web thread that main has not handled yet. -/
  flight : Option CString
  faltas : CString
  rehuses : CString
  eliminado : CString

/-- A text as the browser encodes it in the request. -/
def formText (text : CString) : CString := text.map fun c => if c = ' ' then '+' else c

/-- `for (char *pt=buffer;*pt;pt++) if (*pt=='+') *pt=' ';` -/
def plusToSpace (text : CString) : CString := text.map fun c => if c = '+' then ' ' else c

/-- `writeData` of the web server; a command of more than 127 characters is written past the end of
its buffer. -/
def serverWriteData (now : ℤ) (cmd_value : CString) (s : PressWorld) : Option PressWorld :=
  if cmd_value.length < 128 then
    some { s with input := (queuePut s.input now (plusToSpace cmd_value)).1 }
  else none

/-- `writeData` of the page -/
def writeData (now : ℤ) (msg : CString) (s : PressWorld) : Option PressWorld :=
  serverWriteData now (formText msg) s

inductive PressEvent
  | falta (now inc : ℤ)
  | rehuse (now inc : ℤ)
  | eliminado (now inc : ℤ)
  /-- Another button, or another page. -/
  | write (now : ℤ) (msg : CString)
  /-- The web thread takes a message from its queue and sends it. -/
  | take
  /-- Main handles the datagram of the web thread, which goes on. -/
  | handle
  /-- Main handles a line of another thread. -/
  | line (buffer : CString)
  /-- A `readData`. -/
  | poll

def pressStep (s : PressWorld) : PressEvent → Option PressWorld
  | .falta now inc => writeData now (falta inc s.faltas) s
  | .rehuse now inc => writeData now (rehuse inc s.rehuses) s
  | .eliminado now inc => writeData now (eliminado inc s.eliminado) s
  | .write now msg => writeData now msg s
  | .take =>
    match s.flight with
    | some _ => none
    | none => (queueGet s.input).map fun (input, item) =>
      match item with
      | none => { s with input }
      | some item =>
        if item.msg = [] then { s with input }
        else { s with input, flight := some (scWebsrv ++ ' ' :: item.msg) }
  | .handle => do
    let front ← mainFront s.config (← s.flight)
    return { s with config := front.config, flight := none }
  | .line buffer => (mainFront s.config buffer).map fun front => { s with config := front.config }
  | .poll => some { s with
      faltas := printInt (s.config.status.faults + s.config.status.touchs)
      rehuses := printInt s.config.status.refusals
      eliminado := printInt s.config.status.eliminated }

/-! ## The counters -/

inductive PageCounter
  | faltas
  | rehuses
  deriving DecidableEq

namespace PageCounter

def command : PageCounter → Command
  | .faltas => .fault
  | .rehuses => .refusal

/-- What main counts, and what it adds to that for the page. -/
def parts : PageCounter → Status → ℤ × ℤ
  | .faltas, s => (s.faults, s.touchs)
  | .rehuses, s => (s.refusals, 0)

/-- The value `readData` sends. -/
def value (k : PageCounter) (s : Status) : ℤ := (k.parts s).1 + (k.parts s).2

/-- The commands that change the counter. -/
def MovedBy : PageCounter → Command → Prop
  | .faltas, c => c = .fault ∨ c = .data ∨ c = .reset
  | .rehuses, c => c = .refusal ∨ c = .data ∨ c = .reset

/-- A line that leaves the counter alone. -/
def Unmoved (k : PageCounter) (line : CString) : Prop :=
  ∀ c tokens, parseLine line = some (.command c tokens) → ¬ k.MovedBy c

/-- The text of the button's message for a number. -/
def order (k : PageCounter) (n : ℤ) : CString := k.command.cmd ++ ' ' :: printInt n

end PageCounter

namespace PressWorld

/-- What the page shows of a counter. -/
def field (s : PressWorld) : PageCounter → CString
  | .faltas => s.faltas
  | .rehuses => s.rehuses

/-- The value main has once it has handled the datagram of the web thread. -/
def arriving (s : PressWorld) (k : PageCounter) : ℤ :=
  match s.flight with
  | none => k.value s.config.status
  | some datagram =>
    k.value ((mainFront s.config datagram).map Front.config |>.getD s.config).status

/-- The queue is empty, and the page shows the value main is going to have. -/
def Counts (s : PressWorld) (k : PageCounter) : Prop :=
  s.input.firstOut = none ∧ s.field k = printInt (s.arriving k)

instance (s : PressWorld) (k : PageCounter) : Decidable (s.Counts k) :=
  inferInstanceAs (Decidable (_ ∧ _))

/-- Nothing is under way. -/
def Settled (s : PressWorld) : Prop := s.flight = none ∧ s.input.firstOut = none

/-- Nothing has been sent, and the page shows what main has. -/
structure Fresh (s : PressWorld) (k : PageCounter) : Prop where
  input : Represents s.input []
  flight : s.flight = none
  field : s.field k = printInt (k.value s.config.status)
  nonneg : 0 ≤ (k.parts s.config.status).1 ∧ 0 ≤ (k.parts s.config.status).2

end PressWorld

namespace PressEvent

/-- A press of the button of a counter. -/
def presses : PageCounter → PressEvent → Bool
  | .faltas, .falta _ _ => true
  | .rehuses, .rehuse _ _ => true
  | _, _ => false

/-- The counter is moved by its button alone, one up at a time: whatever else the page or another
thread sends is not a command that changes it. -/
def Allowed (k : PageCounter) : PressEvent → Prop
  | .falta _ inc => k = .faltas → inc = 1
  | .rehuse _ inc => k = .rehuses → inc = 1
  | .write _ msg => msg ≠ [] ∧ k.Unmoved (scWebsrv ++ ' ' :: plusToSpace msg)
  | .line buffer => k.Unmoved buffer
  | _ => True

/-- The event as one of the counter. -/
def late (k : PageCounter) : PressEvent → Option LateCounter.Event
  | .falta _ _ => some (if k = .faltas then .press else .other)
  | .rehuse _ _ => some (if k = .rehuses then .press else .other)
  | .eliminado _ _ | .write _ _ => some .other
  | .take => some .take
  | .handle => some .handle
  | .line _ => none
  | .poll => some .poll

lemma presses_iff (k : PageCounter) (e : PressEvent) :
    e.presses k = true ↔ e.late k = some .press := by
  cases e <;> cases k <;> simp [presses, late]

end PressEvent

/-- The presses of a run that count. -/
def countedPresses (k : PageCounter) : PressWorld → List PressEvent → ℕ
  | _, [] => 0
  | s, e :: events =>
    (if e.presses k = true ∧ s.Counts k then 1 else 0) +
      match pressStep s e with
      | none => 0
      | some t => countedPresses k t events

/-! ## What main does with the lines -/

section

variable {k : PageCounter} {config : Configuration} {line : CString} {front : Front}

/-- The effect of a command on the parts of a counter it does not move. -/
lemma parts_commandEffect {c : Command} (hc : ¬ k.MovedBy c) {rest : Tokens}
    {f : Status → Status} (hf : commandEffect c rest = some f) (s : Status) :
    k.parts (f s) = k.parts s := by
  cases k with
  | faltas =>
    cases c with
    | fault | data | reset => exact absurd (by simp [PageCounter.MovedBy]) hc
    | int | stop =>
      cases hf
      dsimp only [PageCounter.parts]
      split <;> rfl
    | _ =>
      cases hf
      rfl
  | rehuses =>
    cases c with
    | refusal | data | reset => exact absurd (by simp [PageCounter.MovedBy]) hc
    | int | stop =>
      cases hf
      dsimp only [PageCounter.parts]
      split <;> rfl
    | fault =>
      cases hf
      rw [PageCounter.parts, PageCounter.parts]
      cases restArg rest <;> simp only [countEffect, CountArg.applyFaults]
      split <;> try rfl
      split <;> rfl
    | _ =>
      cases hf
      rfl

/-- The status a line leaves is the effect of its command. -/
lemma status_of_command {c : Command} {source : CString} {rest : Tokens}
    (hline : parseLine line = some (.command c (source :: c.cmd :: rest)))
    (hfront : mainFront config line = some front) :
    ∃ f, commandEffect c rest = some f ∧ front.config.status = f config.status := by
  rw [mainFront_command hline] at hfront
  obtain ⟨⟨res, config'⟩, hentry, rfl⟩ := Option.map_eq_some_iff.mp hfront
  have hstatus := entryOutcome_status c config source c.cmd rest
  rw [entryOutcome, hentry, Option.map_some, Option.map_some, eq_comm,
    Option.map_eq_some_iff] at hstatus
  obtain ⟨f, hf, hstatus⟩ := hstatus
  refine ⟨f, hf, ?_⟩
  rw [hstatus]
  dsimp only
  split <;> rfl

lemma parts_of_unmoved (h : k.Unmoved line) (hfront : mainFront config line = some front) :
    k.parts front.config.status = k.parts config.status := by
  cases hline : parseLine line with
  | none =>
    rw [mainFront_none hline] at hfront
    cases hfront
  | some parsed =>
    cases parsed with
    | tooShort =>
      rw [mainFront_tooShort hline] at hfront
      cases hfront
      rfl
    | empty =>
      rw [mainFront_empty hline] at hfront
      cases hfront
      rfl
    | command c tokens =>
      obtain ⟨source, rest, rfl⟩ := parseLine_command hline
      obtain ⟨f, hf, hstatus⟩ := status_of_command hline hfront
      rw [hstatus]
      exact parts_commandEffect (h c _ hline) hf config.status

lemma parseCountArg_printInt {n : ℤ} (hn : 0 ≤ n) (hint : n < 2 ^ 31) :
    parseCountArg (printInt n) = .set n := by
  obtain ⟨n, rfl⟩ := Int.eq_ofNat_of_zero_le hn
  rw [printInt_natCast, parseCountArg_printNat, (toInt32_clamped_eq_iff n).mpr (by omega)]

lemma parseLine_order (n : ℤ) :
    parseLine (scWebsrv ++ ' ' :: k.order n) =
      some (.command k.command [scWebsrv, k.command.cmd, printInt n]) := by
  have hblank : ' ' ∉ printInt n := not_mem_printInt (by decide) (by decide) n
  have hsplit : (printInt n).splitOn ' ' = [printInt n] := by
    have hjoined : ([' '].intercalate [printInt n]).splitOn ' ' = [printInt n] :=
      List.splitOn_intercalate ' ' (by simpa using hblank) (by simp)
    rwa [List.intercalate_singleton] at hjoined
  have hcmd : ' ' ∉ k.command.cmd ∧ k.command.cmd ≠ [] := by cases k <;> decide
  rw [PageCounter.order, parseLine_append _ (by decide) hcmd.1 hcmd.2 (toLower_cmd _), hsplit]
  rfl

/-- Main takes an order for what it says, unless it is below what it adds for the page. -/
lemma parts_of_order {n : ℤ} (hn : 0 ≤ n) (hint : n < 2 ^ 31)
    (hparts : 0 ≤ (k.parts config.status).2 ∧ (k.parts config.status).2 ≤ n) :
    ∃ front, mainFront config (scWebsrv ++ ' ' :: k.order n) = some front ∧
      k.parts front.config.status = (n - (k.parts config.status).2, (k.parts config.status).2) := by
  have hline := parseLine_order (k := k) n
  have hcommand : k.command ≠ .bright := by cases k <;> exact Command.noConfusion
  have hconfig := mainFront_config config hcommand hline
  have harg : restArg [printInt n] = .set n := parseCountArg_printInt hn hint
  have heffect : commandEffect k.command [printInt n] =
      some (countEffect k.command (.set n)) := by
    rw [← harg]
    cases k <;> rfl
  rw [heffect, Option.map_some] at hconfig
  obtain ⟨front, hfront, hfrontConfig⟩ := Option.map_eq_some_iff.mp hconfig
  refine ⟨front, hfront, ?_⟩
  rw [hfrontConfig]
  cases k with
  | faltas =>
    have htouchs : 0 ≤ config.status.touchs ∧ config.status.touchs ≤ n := hparts
    change (max 0 (n - config.status.touchs), max 0 config.status.touchs) =
      (n - config.status.touchs, config.status.touchs)
    rw [max_eq_right (by omega), max_eq_right (by omega)]
  | rehuses =>
    change (max 0 n, (0 : ℤ)) = (n - 0, 0)
    rw [max_eq_right hn, sub_zero]

end

/-! ## The texts of the buttons -/

lemma plusToSpace_formText (msg : CString) : plusToSpace (formText msg) = plusToSpace msg := by
  unfold plusToSpace formText
  rw [List.map_map]
  refine List.map_congr_left fun c _ => ?_
  by_cases hc : c = ' '
  · simp [hc]
  · simp [hc]

lemma plusToSpace_append (a b : CString) : plusToSpace (a ++ b) = plusToSpace a ++ plusToSpace b :=
  List.map_append

lemma plusToSpace_of_notMem {s : CString} (h : '+' ∉ s) : plusToSpace s = s := by
  unfold plusToSpace
  refine (List.map_congr_left fun c hc => ?_).trans (List.map_id s)
  exact if_neg fun heq : c = '+' => h (heq ▸ hc)

/-- What is sent as an order arrives as it. -/
lemma plusToSpace_order (k : PageCounter) (n : ℤ) : plusToSpace (k.order n) = k.order n := by
  have hnumber : plusToSpace (printInt n) = printInt n :=
    plusToSpace_of_notMem (not_mem_printInt (by decide) (by decide) n)
  rw [PageCounter.order, show k.command.cmd ++ ' ' :: printInt n =
    (k.command.cmd ++ [' ']) ++ printInt n by simp, plusToSpace_append, hnumber]
  cases k <;> rfl

/-- The number a `+` button orders. -/
lemma numberText_incremented {x : ℤ} (hlo : 0 ≤ x) (hhi : x < 2 ^ 31) :
    numberText (notNegative (incremented 1 (parseInt (printInt x)))) = printInt (x + 1) := by
  have hsafe : Safe x := by
    unfold Safe
    omega
  have hsafe' : Safe (1 + x) := by
    unfold Safe
    omega
  have hnumber : notNegative (incremented 1 (.whole x)) = .whole (x + 1) := by
    change notNegative (number (1 + x)) = .whole (x + 1)
    rw [number_of_safe hsafe']
    change Number.whole (max 0 (1 + x)) = .whole (x + 1)
    rw [max_eq_right (by omega), add_comm]
  rw [parseInt_printInt hsafe, hnumber]
  rfl

lemma falta_printInt {x : ℤ} (hlo : 0 ≤ x) (hhi : x < 2 ^ 31) :
    falta 1 (printInt x) = PageCounter.faltas.order (x + 1) :=
  congrArg ("fault ".toList ++ ·) (numberText_incremented hlo hhi)

lemma rehuse_printInt {x : ℤ} (hlo : 0 ≤ x) (hhi : x < 2 ^ 31) :
    rehuse 1 (printInt x) = PageCounter.rehuses.order (x + 1) :=
  congrArg ("refusal ".toList ++ ·) (numberText_incremented hlo hhi)

/-- The message of another button. -/
lemma unmoved_word {k : PageCounter} {c : Command} (hc : ¬ k.MovedBy c) (hblank : ' ' ∉ c.cmd)
    (hcmd : c.cmd ≠ []) (args : CString) :
    k.Unmoved (scWebsrv ++ ' ' :: (c.cmd ++ ' ' :: args)) := by
  intro d tokens hline
  rw [parseLine_append _ (by decide) hblank hcmd (toLower_cmd c)] at hline
  split_ifs at hline
  cases hline
  exact hc

/-! ## The counter as it is seen late -/

/-- A text stands for a message of the counter. -/
def Stands (k : PageCounter) (text : CString) : LateCounter.Message → Prop
  | some n => text = k.order n ∧ 0 ≤ n ∧ n < 2 ^ 31
  | none => text ≠ [] ∧ k.Unmoved (scWebsrv ++ ' ' :: text)

lemma Stands.ne_nil {k : PageCounter} {text : CString} {m : LateCounter.Message}
    (h : Stands k text m) : text ≠ [] := by
  cases m with
  | none => exact h.1
  | some n =>
    rw [h.1]
    exact List.append_ne_nil_of_right_ne_nil _ (List.cons_ne_nil _ _)

/-- The counter of the page and of main, with what is between them. -/
structure Follows (k : PageCounter) (s : PressWorld) (a : LateCounter.State) : Prop where
  waiting : ∃ held, Represents s.input held ∧
    Option.Rel (Stands k) (held.head?.map QItem.msg) a.waiting
  flight : Option.Rel (fun datagram m => ∃ text, datagram = scWebsrv ++ ' ' :: text ∧
    Stands k text m) s.flight a.flight
  value : k.value s.config.status = a.value
  field : s.field k = printInt a.shown
  parts : 0 ≤ (k.parts s.config.status).1 ∧ 0 ≤ (k.parts s.config.status).2
  shown : 0 ≤ a.shown
  inStep : a.InStep

namespace Follows

variable {k : PageCounter} {s t : PressWorld} {a : LateCounter.State}

/-- A message is put in the queue, which is a box for one. -/
lemma send (h : Follows k s a) {now : ℤ} {msg : CString} {m : LateCounter.Message}
    (hstands : Stands k (plusToSpace msg) m) (hwrite : writeData now msg s = some t) :
    t = { s with input := t.input } ∧ ∃ held, Represents t.input held ∧
      Option.Rel (Stands k) (held.head?.map QItem.msg) (a.send m).waiting := by
  unfold writeData serverWriteData at hwrite
  split_ifs at hwrite
  cases hwrite
  refine ⟨rfl, ?_⟩
  obtain ⟨held, hheld, hrel⟩ := h.waiting
  refine ⟨_, queuePut_spec hheld now _, ?_⟩
  rw [plusToSpace_formText]
  obtain ⟨shown, value, flight, waiting⟩ := a
  cases held with
  | nil =>
    cases hrel
    exact .some hstands
  | cons item held =>
    cases hrel with
    | some hitem => exact .some hitem

/-- A message of the page that is not a press of the counter's button. -/
lemma other (h : Follows k s a) {now : ℤ} {msg : CString} (hne : msg ≠ [])
    (hunmoved : k.Unmoved (scWebsrv ++ ' ' :: plusToSpace msg))
    (hwrite : writeData now msg s = some t) : Follows k t (step a .other) := by
  have hstands : Stands k (plusToSpace msg) none := ⟨by simpa [plusToSpace] using hne, hunmoved⟩
  obtain ⟨ht, hwaiting⟩ := h.send hstands hwrite
  rw [ht]
  have hstep := (h.inStep.step .other).1
  obtain ⟨shown, value, flight, waiting⟩ := a
  cases waiting <;> exact ⟨hwaiting, h.flight, h.value, h.field, h.parts, h.shown, hstep⟩

/-- The button of another counter. -/
lemma otherButton (h : Follows k s a) {now : ℤ} {msg number : CString} {c : Command}
    (hc : ¬ k.MovedBy c) (hmsg : msg = c.cmd ++ ' ' :: number)
    (hwrite : writeData now msg s = some t) : Follows k t (step a .other) := by
  have hcmd : ' ' ∉ c.cmd ∧ c.cmd ≠ [] ∧ plusToSpace c.cmd = c.cmd := by
    cases c <;> decide
  have hne : msg ≠ [] := by
    rw [hmsg]
    exact List.append_ne_nil_of_left_ne_nil hcmd.2.1 _
  refine h.other hne ?_ hwrite
  rw [hmsg, plusToSpace_append, hcmd.2.2]
  exact unmoved_word hc hcmd.1 hcmd.2.1 (plusToSpace number)

/-- A press of the counter's button. -/
lemma press (h : Follows k s a) {now : ℤ} {msg : CString} (hint : a.due + 1 < 2 ^ 31)
    (hmsg : msg = k.order (a.shown + 1)) (hwrite : writeData now msg s = some t) :
    Follows k t (step a .press) := by
  have hdue : a.shown ≤ a.due := h.inStep.shown.trans (h.inStep.value.trans h.inStep.arriving)
  have hshown := h.shown
  have hstands : Stands k (plusToSpace msg) (some (a.shown + 1)) := by
    rw [hmsg, plusToSpace_order]
    exact ⟨rfl, by omega, by omega⟩
  obtain ⟨ht, hwaiting⟩ := h.send hstands hwrite
  rw [ht]
  have hstep := (h.inStep.step .press).1
  obtain ⟨shown, value, flight, waiting⟩ := a
  cases waiting <;> exact ⟨hwaiting, h.flight, h.value, h.field, h.parts, h.shown, hstep⟩

/-- The web thread takes a message. -/
lemma take (h : Follows k s a) (hstep : pressStep s .take = some t) :
    Follows k t (step a .take) := by
  obtain ⟨held, hheld, hrel⟩ := h.waiting
  obtain ⟨input, hget, hinput, -⟩ := queueGet_spec hheld
  have hinStep := (h.inStep.step .take).1
  have hflight := h.flight
  simp only [pressStep] at hstep
  split at hstep
  · cases hstep
  · next hnone =>
    rw [hnone] at hflight
    rw [hget, Option.map_some] at hstep
    cases hstep
    obtain ⟨shown, value, flight, waiting⟩ := a
    cases hflight
    cases held with
    | nil =>
      cases hrel
      refine ⟨⟨[], hinput, .none⟩, ?_, h.value, h.field, h.parts, h.shown, hinStep⟩
      rw [show s.flight = none from hnone]
      exact .none
    | cons item held =>
      cases hrel with
      | some hitem =>
        simp only [List.head?_cons, if_neg hitem.ne_nil]
        exact ⟨⟨[], hinput, .none⟩, .some ⟨_, rfl, hitem⟩, h.value, h.field, h.parts, h.shown,
          hinStep⟩

/-- What main does with a message. -/
lemma message (h : Follows k s a) {text : CString} {m : LateCounter.Message}
    (hstands : Stands k text m) (hle : a.value ≤ m.getD a.value) :
    (∀ n, m = some n → ∃ front, mainFront s.config (scWebsrv ++ ' ' :: text) = some front) ∧
      ∀ front, mainFront s.config (scWebsrv ++ ' ' :: text) = some front →
        k.value front.config.status = m.getD a.value ∧
          0 ≤ (k.parts front.config.status).1 ∧ 0 ≤ (k.parts front.config.status).2 := by
  have hvalue : (k.parts s.config.status).1 + (k.parts s.config.status).2 = a.value := h.value
  obtain ⟨hfirst, hsecond⟩ := h.parts
  cases m with
  | none =>
    refine ⟨fun _ hn => absurd hn (by simp), fun front hfront => ?_⟩
    have hparts := parts_of_unmoved hstands.2 hfront
    rw [PageCounter.value, hparts]
    exact ⟨h.value, h.parts⟩
  | some n =>
    obtain ⟨rfl, hn, hint⟩ := hstands
    rw [Option.getD_some] at hle
    obtain ⟨front, hfront, hparts⟩ := parts_of_order hn hint ⟨hsecond, by omega⟩
    refine ⟨fun _ _ => ⟨front, hfront⟩, fun front' hfront' => ?_⟩
    obtain rfl := Option.some.inj (hfront.symm.trans hfront')
    rw [PageCounter.value, hparts, Option.getD_some]
    dsimp only
    omega

/-- The value main is going to have. -/
lemma arriving (h : Follows k s a) : s.arriving k = a.arriving := by
  have hle := h.inStep.value
  have hflight := h.flight
  have hmessage := @h.message
  unfold PressWorld.arriving
  unfold State.arriving at hle ⊢
  cases hs : s.flight with
  | none =>
    rw [hs] at hflight
    cases ha : a.flight with
    | none => exact h.value
    | some m =>
      rw [ha] at hflight
      cases hflight
  | some datagram =>
    rw [hs] at hflight
    cases ha : a.flight with
    | none =>
      rw [ha] at hflight
      cases hflight
    | some m =>
      rw [ha] at hflight hle
      cases hflight with
      | some hstands =>
        obtain ⟨text, rfl, hstands⟩ := hstands
        obtain ⟨hdefined, hall⟩ := hmessage hstands hle
        change k.value
          (((mainFront s.config (scWebsrv ++ ' ' :: text)).map Front.config).getD s.config).status =
            m.getD a.value
        cases hfront : mainFront s.config (scWebsrv ++ ' ' :: text) with
        | none =>
          cases m with
          | none => exact h.value
          | some n =>
            obtain ⟨front, hsome⟩ := hdefined n rfl
            rw [hfront] at hsome
            cases hsome
        | some front => exact (hall front hfront).1

/-- Main handles the datagram of the web thread. -/
lemma handle (h : Follows k s a) (hstep : pressStep s .handle = some t) :
    Follows k t (step a .handle) := by
  obtain ⟨datagram, hs, hstep⟩ := Option.bind_eq_some_iff.mp hstep
  obtain ⟨front, hfront, hstep⟩ := Option.bind_eq_some_iff.mp hstep
  cases hstep
  have hle := h.inStep.value
  have hflight := h.flight
  rw [hs] at hflight
  unfold State.arriving at hle
  cases ha : a.flight with
  | none =>
    rw [ha] at hflight
    cases hflight
  | some m =>
    rw [ha] at hflight hle
    cases hflight with
    | some hstands =>
      obtain ⟨text, rfl, hstands⟩ := hstands
      obtain ⟨hvalue, hparts⟩ := (h.message hstands hle).2 front hfront
      have harriving : a.arriving = m.getD a.value := by rw [State.arriving, ha]; rfl
      exact ⟨h.waiting, .none, hvalue.trans harriving.symm, h.field, hparts, h.shown,
        (h.inStep.step .handle).1⟩

/-- Main handles a line of another thread. -/
lemma line (h : Follows k s a) {buffer : CString} (hunmoved : k.Unmoved buffer)
    (hstep : pressStep s (.line buffer) = some t) : Follows k t a := by
  obtain ⟨front, hfront, rfl⟩ := Option.map_eq_some_iff.mp hstep
  have hparts := parts_of_unmoved hunmoved hfront
  refine ⟨h.waiting, h.flight, ?_, h.field, ?_, h.shown, h.inStep⟩
  · rw [PageCounter.value, hparts]
    exact h.value
  · rw [hparts]
    exact h.parts

/-- The page is brought up to date. -/
lemma poll (h : Follows k s a) (hstep : pressStep s .poll = some t) :
    Follows k t (step a .poll) := by
  cases hstep
  refine ⟨h.waiting, h.flight, h.value, ?_, h.parts, ?_, (h.inStep.step .poll).1⟩
  · change PressWorld.field _ k = printInt a.value
    rw [← h.value]
    cases k with
    | faltas => rfl
    | rehuses => exact congrArg printInt (add_zero s.config.status.refusals).symm
  · exact h.shown.trans h.inStep.shown

/-- What the page shows is below a limit that what is due keeps. -/
lemma shown_lt (h : Follows k s a) {limit : ℤ} (hint : a.due < limit) : a.shown < limit :=
  ((h.inStep.shown.trans h.inStep.value).trans h.inStep.arriving).trans_lt hint

/-- One event, on both sides. -/
lemma step (h : Follows k s a) {e : PressEvent} (hallowed : e.Allowed k)
    (hint : a.due + 1 < 2 ^ 31) (hstep : pressStep s e = some t) :
    Follows k t ((e.late k).elim a (LateCounter.step a)) := by
  have hshown : a.shown < 2 ^ 31 := h.shown_lt (by omega)
  have hfield := h.field
  cases e with
  | falta now inc =>
    have hwrite : writeData now (falta inc s.faltas) s = some t := hstep
    cases k with
    | faltas =>
      obtain rfl : inc = 1 := hallowed rfl
      have hmsg : falta 1 s.faltas = PageCounter.faltas.order (a.shown + 1) :=
        (congrArg (falta 1) hfield).trans (falta_printInt h.shown hshown)
      exact h.press hint hmsg hwrite
    | rehuses => exact h.otherButton (c := .fault) (by simp [PageCounter.MovedBy]) rfl hwrite
  | rehuse now inc =>
    have hwrite : writeData now (rehuse inc s.rehuses) s = some t := hstep
    cases k with
    | faltas => exact h.otherButton (c := .refusal) (by simp [PageCounter.MovedBy]) rfl hwrite
    | rehuses =>
      obtain rfl : inc = 1 := hallowed rfl
      have hmsg : rehuse 1 s.rehuses = PageCounter.rehuses.order (a.shown + 1) :=
        (congrArg (rehuse 1) hfield).trans (rehuse_printInt h.shown hshown)
      exact h.press hint hmsg hwrite
  | eliminado now inc =>
    have hwrite : writeData now (eliminado inc s.eliminado) s = some t := hstep
    exact h.otherButton (c := .elim) (by cases k <;> simp [PageCounter.MovedBy]) rfl hwrite
  | write now msg =>
    have hwrite : writeData now msg s = some t := hstep
    exact h.other hallowed.1 hallowed.2 hwrite
  | take => exact h.take hstep
  | handle => exact h.handle hstep
  | line buffer => exact h.line hallowed hstep
  | poll => exact h.poll hstep

/-- The presses that count are the same on both sides. -/
lemma counts_iff (h : Follows k s a) : s.Counts k ↔ a.Counts := by
  obtain ⟨held, hheld, hrel⟩ := h.waiting
  refine and_congr ?_ ?_
  · cases held with
    | nil =>
      refine iff_of_true hheld.firstOut_nil.1 ?_
      cases ha : a.waiting with
      | none => rfl
      | some m =>
        rw [ha] at hrel
        cases hrel
    | cons item held =>
      obtain ⟨address, hfirst, -⟩ := hheld.ends
      rw [hfirst]
      refine iff_of_false (by simp) fun hnone => ?_
      rw [hnone] at hrel
      cases hrel
  · rw [h.field, h.arriving, printInt_injective.eq_iff, eq_comm]

/-- The value that is due does not grow faster than the events. -/
lemma due_step_le (h : Follows k s a) (e : PressEvent) :
    ((e.late k).elim a (LateCounter.step a)).due ≤ a.due + 1 := by
  cases e.late k with
  | none => exact Int.le.intro 1 rfl
  | some e' =>
    rw [Option.elim_some, (h.inStep.step e').2]
    split_ifs <;> omega

/-- Nothing is under way on either side. -/
lemma settled (h : Follows k s a) (hs : s.Settled) : a.due = a.value := by
  obtain ⟨held, hheld, hrel⟩ := h.waiting
  have hflight := h.flight
  rw [hs.1] at hflight
  obtain ⟨shown, value, flight, waiting⟩ := a
  cases hflight
  cases held with
  | nil =>
    cases hrel
    rfl
  | cons item held =>
    obtain ⟨address, hfirst, -⟩ := hheld.ends
    rw [hs.2] at hfirst
    cases hfirst

/-- A whole run, on both sides. -/
lemma run {events : List PressEvent} (h : Follows k s a) (hallowed : ∀ e ∈ events, e.Allowed k)
    (hint : a.due + events.length < 2 ^ 31) (hrun : PartialRun.run pressStep s events = some t) :
    Follows k t ((events.filterMap (PressEvent.late k)).foldl LateCounter.step a) ∧
      countedPresses k s events = counted a (events.filterMap (PressEvent.late k)) := by
  induction events generalizing s a with
  | nil =>
    cases hrun
    exact ⟨h, rfl⟩
  | cons e events ih =>
    obtain ⟨u, hu, hrest⟩ := Option.bind_eq_some_iff.mp hrun
    rw [List.length_cons] at hint
    push_cast at hint
    have hstep := h.step (hallowed e List.mem_cons_self) (by omega) hu
    have hdue := h.due_step_le e
    obtain ⟨hfollows, hcounted⟩ := ih hstep (fun d hd => hallowed d (List.mem_cons_of_mem e hd))
      (by omega) hrest
    have hcounts := h.counts_iff
    have hpresses := PressEvent.presses_iff k e
    rw [countedPresses, hu]
    cases hlate : e.late k with
    | none =>
      rw [hlate] at hfollows hcounted hpresses
      rw [List.filterMap_cons_none hlate]
      refine ⟨hfollows, ?_⟩
      have hno : ¬ (e.presses k = true ∧ s.Counts k) := fun hand =>
        absurd (hpresses.mp hand.1) (by simp)
      rw [if_neg hno, zero_add]
      exact hcounted
    | some e' =>
      rw [hlate] at hfollows hcounted hpresses
      rw [List.filterMap_cons_some hlate]
      refine ⟨hfollows, ?_⟩
      rw [Option.some.injEq] at hpresses
      rw [counted, if_congr (and_congr hpresses hcounts) rfl rfl]
      exact congrArg (_ + ·) hcounted

end Follows

/-- A page that has been polled once, with the default options. -/
def polledPage : PressWorld :=
  ⟨defaultOptions, queueCreate, none, "0".toList, "0".toList, "0".toList⟩

/-- Two presses in a row, and a third when the first one is shown. -/
def threePresses : List PressEvent :=
  [.falta 0 1, .falta 200 1, .take, .handle, .poll, .falta 900 1, .take, .handle]

/-- The state after the three presses, of which two count. -/
def afterThreePresses : PressWorld :=
  (run pressStep polledPage threePresses).get (by decide +kernel)

example : countedPresses .faltas polledPage threePresses = 2 := by decide +kernel

end SerialChrono
