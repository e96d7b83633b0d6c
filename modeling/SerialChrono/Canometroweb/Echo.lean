import SerialChrono.Canometroweb.Toggle
import SerialChrono.MainSpec
import SerialChrono.Managers.Network
import SerialChrono.Managers.Ajax
import Mathlib.Data.List.TakeWhile

/-!
# A start that comes back

A start ordered by AgilityContest, by a browser or from the console goes through the main thread
to the driver, which sets the chronometer running.  The next poll sees it run, does not know why,
and sends `START 0`; the handlers stop a line from going back to where it came from, but this one
comes from the chronometer.  `start_survives_iff` says what it does: unless the time ordered was
zero and there is no link with AgilityContest, it overwrites the time of the start and is
published as a new one.

Of the manager threads those of the chronometer and of AgilityContest are modelled; the console
and the browsers are only told what happens.
-/

namespace SerialChrono

open CText PartialRun

variable {D : Type} (dev : Device D) (readXml : XmlReader)

/-! ## The two links -/

/-- What the handlers of the two managers work on: the driver, and the events published. -/
structure LinkWorld (D : Type) where
  driver : DriverState D
  published : List PutEvent

/-- A handler of the network manager. -/
def networkHandler (f : Tokens → ℕ → SerialCall) : ThreadHandler (LinkWorld D) :=
  fun config world _ tokens ntokens =>
    match f tokens ntokens with
    | .returns res => some (res, config, world, tokens)
    | .moduleWrite tokens _ => do
      let (res, driver) ← (← moduleWrite dev readXml config tokens world.driver).result
      return (res, config, { world with driver }, tokens)

/-- A handler of the ajax manager; the server decides what it returns. -/
def ajaxHandler (answer : PutEvent → ℤ)
    (f : Configuration → Tokens → ℕ → Option AjaxCall) : ThreadHandler (LinkWorld D) :=
  fun config world _ tokens ntokens => do
    match ← f config tokens ntokens with
    | .returns res => return (res, config, world, tokens)
    | .putEvent event => return (answer event, event.config,
        { world with published := world.published ++ [event] }, tokens)

/-- The network manager in the thread table. -/
def networkSlot : ThreadSlot (LinkWorld D) :=
  ⟨1, some fun c => (netMgrEntries c).map (networkHandler dev readXml)⟩

/-- The ajax manager in the thread table, if there is a link with AgilityContest. -/
def ajaxSlot (answer : PutEvent → ℤ) (linked : Bool) : ThreadSlot (LinkWorld D) :=
  if linked then ⟨3, some fun c => (ajaxMgrEntries c).map (ajaxHandler answer)⟩ else ⟨-1, none⟩

/-- A datagram that finds the two managers. -/
def linkArrival (answer : PutEvent → ℤ) (linked : Bool) (datagram : List Char) :
    Arrival (LinkWorld D) where
  datagram := datagram
  slots
    | 1 => networkSlot dev readXml
    | 3 => ajaxSlot answer linked
    | _ => ⟨-1, none⟩

/-- A line for the main thread, or a poll that finds the chronometer in this state. -/
inductive LinkInput (D : Type)
  | line (datagram : List Char)
  | poll (device : D)

/-- The state of main after a datagram; there is none after the loop has ended. -/
def linkLine (answer : PutEvent → ℤ) (linked : Bool) (s : MainState (LinkWorld D))
    (datagram : List Char) : Option (MainState (LinkWorld D)) :=
  if s.loop then
    (mainStep s (linkArrival dev readXml answer linked datagram)).map Prod.fst
  else none

/-- A line that is handled, or a turn of the loop of the network thread, with the line it
sends. -/
def linkStep (answer : PutEvent → ℤ) (linked : Bool) (s : MainState (LinkWorld D)) :
    LinkInput D → Option (MainState (LinkWorld D))
  | .line datagram => linkLine dev readXml answer linked s datagram
  | .poll device => do
    let (res, buffer, driver) ← (← moduleRead dev readXml s.config pollLength
      { s.world.driver with device }).result
    let s := { s with world.driver := driver }
    if res < 0 then return s
    match networkLine (buffer.getD []) with
    | none => return s
    | some line => linkLine dev readXml answer linked s line

/-! ## The lines of the chronometer -/

/-- A line that neither starts a run nor ends one leaves the time of the start alone. -/
lemma commandEffect_startTime {c : Command} (hc : c = .int ∨ c = .data) {rest : Tokens}
    {f : Status → Status} (hf : commandEffect c rest = some f) (s : Status) :
    (f s).startTime = s.startTime := by
  rcases hc with rfl | rfl
  · cases hf
    dsimp only
    split_ifs <;> rfl
  · simp only [commandEffect] at hf
    rcases hhead : rest.head? with - | arg
    · rw [hhead] at hf
      cases hf
      rfl
    · rw [hhead] at hf
      obtain ⟨d, -, rfl⟩ := Option.map_eq_some_iff.mp hf
      rfl

lemma startTime_of_network_line {config : Configuration} {word args : CString} {c : Command}
    (hblank : ' ' ∉ word) (hne : word ≠ []) (hword : toLower word = c.cmd)
    (hc : c = .int ∨ c = .data) {front : Front}
    (h : mainFront config (scNetwork ++ ' ' :: (word ++ ' ' :: args)) = some front) :
    front.config.status.startTime = config.status.startTime := by
  have hline := parseLine_append args (by decide : ' ' ∉ scNetwork) hblank hne hword
  split_ifs at hline
  · have hbright : c ≠ .bright := by
      rcases hc with rfl | rfl <;> decide
    have hconfig := mainFront_config config hbright hline
    rw [h, Option.map_some, eq_comm, Option.map_eq_some_iff] at hconfig
    obtain ⟨f, hf, hconfig⟩ := hconfig
    rw [← hconfig]
    exact commandEffect_startTime hc hf config.status
  · rw [mainFront_none hline] at h
    cases h

lemma notMem_dataText {ch : Char} (hdigit : ch.isDigit = false) (hminus : ch ≠ '-')
    (hcolon : ch ≠ ':') (hword : ch ∉ "DATA ".toList) (data : CanometrowebData) :
    ch ∉ dataText data := by
  have hnumber : ∀ x, ch ∉ printInt x := not_mem_printInt hdigit hminus
  rw [dataText_eq]
  simp only [List.mem_append, List.mem_cons, not_or]
  exact ⟨⟨⟨hword, hnumber _⟩, hcolon, hnumber _⟩, hcolon, hnumber _⟩

/-- The counters after the word `DATA`. -/
lemma dataText_take (data : CanometrowebData) :
    ∃ args, (dataText data).take (pollLength - 1) = "DATA".toList ++ ' ' :: args := by
  have hword : "DATA ".toList = "DATA".toList ++ [' '] := by decide
  have hlength : "DATA".toList.length = 4 := rfl
  let numbers := printInt data.faltas ++ ':' :: printInt data.rehuses ++
    ':' :: printInt data.eliminado
  have htext : dataText data = "DATA".toList ++ ' ' :: numbers := by
    rw [dataText_eq, hword]
    simp only [numbers, List.append_assoc, List.cons_append, List.nil_append]
  refine ⟨numbers.take (pollLength - 6), ?_⟩
  rw [htext, List.take_append, hlength, List.take_of_length_le (by rw [hlength]; decide)]
  exact congrArg ("DATA".toList ++ ·) (List.take_succ_cons)

/-- What a poll sends while the chronometer runs: a start, or a line that leaves the time of the
start alone. -/
lemma runningText_cases (config : Configuration) (stored : CanometrowebData)
    {received : CanometrowebData} (hrunning : received.running ≠ 0) :
    pollText config stored received = Report.start.text ∨
      pollText config stored received = [] ∨
      ∃ word args c, ' ' ∉ word ∧ word ≠ [] ∧ toLower word = Command.cmd c ∧
        (c = .int ∨ c = .data) ∧ '\x00' ∉ word ++ ' ' :: args ∧
        networkLine (pollText config stored received) =
          some (scNetwork ++ ' ' :: (word ++ ' ' :: args)) := by
  unfold pollText
  rcases hreport : report stored received with - | r
  · dsimp only
    split_ifs
    · obtain ⟨args, hargs⟩ := dataText_take received
      have hclean : ∀ ch, ch ∉ dataText received → ch ∉ "DATA".toList ++ ' ' :: args := by
        intro ch hch h
        rw [← hargs] at h
        exact hch (List.mem_of_mem_take h)
      refine .inr (.inr ⟨"DATA".toList, args, .data, by decide, by decide, by decide, .inr rfl,
        ?_, ?_⟩)
      · exact hclean _ (notMem_dataText (by decide) (by decide) (by decide) (by decide) received)
      · rw [hargs]
        have hnewline : '\n' ∉ dataText received :=
          notMem_dataText (by decide) (by decide) (by decide) (by decide) received
        exact (driverLine_of_line scNetwork (hclean _ hnewline) (by simp)).2
    · exact .inr (.inl rfl)
  · rcases report_of_running stored hrunning with hstart | ⟨-, hint⟩
    · rw [hreport] at hstart
      cases hstart
      exact .inl rfl
    · obtain ⟨tiempo, rfl⟩ := hint r hreport
      have hclean : ∀ ch, ch ∉ "INT ".toList → ch.isDigit = false →
          ch ∉ "INT".toList ++ ' ' :: printULong tiempo := by
        intro ch hword hdigit h
        rw [show "INT".toList ++ ' ' :: printULong tiempo =
          "INT ".toList ++ printULong tiempo from rfl, List.mem_append] at h
        exact h.elim hword (not_mem_printULong hdigit tiempo)
      refine .inr (.inr ⟨"INT".toList, printULong tiempo, .int, by decide, by decide, by decide,
        .inl rfl, hclean _ (by decide) (by decide), ?_⟩)
      exact (driverLine_of_line scNetwork (hclean _ (by decide) (by decide)) (by simp)).1

/-! ## A line from the chronometer -/

variable (answer : PutEvent → ℤ)

lemma threadLoop_link (c : Command) (ntokens : ℕ) (linked : Bool) (datagram : List Char)
    (r : ThreadRound (LinkWorld D)) :
    threadLoop c ntokens (linkArrival dev readXml answer linked datagram).managers 0 r =
      (threadTurn c ntokens r 1 (networkSlot dev readXml)).bind fun r =>
        threadTurn c ntokens r 3 (ajaxSlot answer linked) := by
  show (threadTurn c ntokens r 1 (networkSlot dev readXml)).bind (fun r =>
    (threadTurn c ntokens r 3 (ajaxSlot answer linked)).bind some) = _
  exact congrArg _ (funext fun r => Option.bind_fun_some _)

/-- The network manager does nothing with a line of its own. -/
lemma threadTurn_network_own {c : Command} {ntokens n : ℕ} {r : ThreadRound (LinkWorld D)}
    (htokens : fromSource scNetwork r.tokens = true) :
    threadTurn c ntokens r n (networkSlot dev readXml) = some { r with alive := r.alive + 1 } := by
  have hindex : ¬ (1 : ℤ) < 0 := by decide
  rcases hf : netMgrEntries c with - | f
  · exact threadTurn_of_none hindex (by rw [hf, Option.map_none])
  · have hhandler : (netMgrEntries c).map (networkHandler dev readXml) =
        some (networkHandler dev readXml f) := by rw [hf, Option.map_some]
    rw [networkSlot, threadTurn_of_some hindex hhandler]
    simp only [networkHandler, netMgrEntries_own hf htokens]
    rfl

/-- Without a link, a line of the chronometer does what its `main_mgr` handler does. -/
lemma linkLine_own {s t : MainState (LinkWorld D)} {word args : CString} {c : Command}
    (hblank : ' ' ∉ word) (hne : word ≠ []) (hword : toLower word = c.cmd)
    (hnul : '\x00' ∉ word ++ ' ' :: args)
    (h : linkLine dev readXml answer false s (scNetwork ++ ' ' :: (word ++ ' ' :: args)) = some t) :
    t.world = s.world ∧ ∃ front,
      mainFront s.config (scNetwork ++ ' ' :: (word ++ ' ' :: args)) = some front ∧
        t.config = front.config := by
  unfold linkLine at h
  split_ifs at h
  obtain ⟨⟨t', response⟩, hmain, rfl⟩ := Option.map_eq_some_iff.mp h
  obtain ⟨buffer, hreceive, hmain⟩ := Option.bind_eq_some_iff.mp hmain
  have hnul' : '\x00' ∉ scNetwork ++ ' ' :: (word ++ ' ' :: args) := by
    intro hmem
    rcases List.mem_append.mp hmem with hmem | hmem
    · exact absurd hmem (by decide)
    · rcases List.mem_cons.mp hmem with heq | hmem
      · exact absurd heq (by decide)
      · exact hnul hmem
  obtain rfl := receive_eq hnul' hreceive
  obtain ⟨front, hfront, hmain⟩ := Option.bind_eq_some_iff.mp hmain
  rcases front with ⟨response', config⟩ | ⟨c', tokens, config⟩
  · cases hmain
    exact ⟨rfl, _, hfront, rfl⟩
  · obtain ⟨r, hloop, hmain⟩ := Option.bind_eq_some_iff.mp hmain
    have hown : fromSource scNetwork tokens = true := by
      have hline := (mainFront_dispatch hfront).1
      rw [parseLine_append args (by decide : ' ' ∉ scNetwork) hblank hne hword] at hline
      split_ifs at hline
      cases hline
      exact beq_self_eq_true _
    rw [threadLoop_link, threadTurn_network_own dev readXml hown] at hloop
    cases hloop
    cases hmain
    exact ⟨rfl, _, hfront, rfl⟩

/-- The line of a start that a poll has seen. -/
def startLine : CString := "net_server START 0".toList

lemma networkLine_start : networkLine Report.start.text = some startLine := by
  decide

lemma parseLine_startLine :
    parseLine startLine = some (.command .start [scNetwork, Command.start.cmd, "0".toList]) := by
  decide

/-- The event of a start at zero. -/
def startEvent (config : Configuration) : PutEvent :=
  ⟨config, "crono_start".toList, some (.ofValue (printULong (1 + 0))), false⟩

lemma mainFront_startLine (config : Configuration) :
    mainFront config startLine = some (.dispatch .start
      [scNetwork, Command.start.cmd, "0".toList] { config with status.startTime := 0 }) := by
  have hzero : strtol "0".toList = 0 := by decide
  rw [mainFront_command parseLine_startLine]
  show some (Front.dispatch _ _ { config with status.startTime := strtol "0".toList }) = _
  rw [hzero]

/-- The turn of the ajax manager for a command it publishes. -/
lemma threadTurn_ajax_put (linked : Bool) (n ntokens : ℕ) (r : ThreadRound (LinkWorld D))
    {c : Command} {f : Configuration → Tokens → ℕ → Option AjaxCall} {type : CString}
    {data : Option ExtraData} {flag : Bool} (hentry : ajaxMgrEntries c = some f)
    (hput : f r.config r.tokens ntokens = some (ajaxMgrPut type data flag r.config r.tokens)) :
    ∃ t, threadTurn c ntokens r n (ajaxSlot answer linked) = some t ∧ t.config = r.config ∧
      t.world.driver = r.world.driver ∧
      t.world.published = r.world.published ++
        if linked && !fromSource scAjaxsrv r.tokens then [⟨r.config, type, data, flag⟩] else [] := by
  rcases linked
  · exact ⟨r, rfl, rfl, rfl, (List.append_nil _).symm⟩
  · have hindex : ¬ (3 : ℤ) < 0 := by decide
    have hhandler : (ajaxMgrEntries c).map (ajaxHandler (D := D) answer) =
        some (ajaxHandler answer f) := by rw [hentry, Option.map_some]
    rw [ajaxSlot, if_pos rfl, threadTurn_of_some hindex hhandler]
    simp only [ajaxHandler, hput, ajaxMgrPut]
    cases fromSource scAjaxsrv r.tokens with
    | true => exact ⟨_, rfl, rfl, rfl, (List.append_nil _).symm⟩
    | false => exact ⟨_, rfl, rfl, rfl, rfl⟩

/-- A line that comes from the chronometer, of a command that is published. -/
lemma linkLine_published (linked : Bool) {s : MainState (LinkWorld D)} (hloop : s.loop = true)
    {line : CString} {c : Command} {args : Tokens} {config : Configuration}
    {f : Configuration → Tokens → ℕ → Option AjaxCall} {type : CString} {data : Option ExtraData}
    {flag : Bool} (hreceive : receive line = some line)
    (hfront : mainFront s.config line =
      some (.dispatch c (scNetwork :: c.cmd :: args) config))
    (hentry : ajaxMgrEntries c = some f)
    (hput : ∀ tokens ntokens, f config tokens ntokens =
      some (ajaxMgrPut type data flag config tokens)) :
    ∃ t, linkLine dev readXml answer linked s line = some t ∧ t.config = config ∧
      t.world.driver = s.world.driver ∧
      t.world.published = s.world.published ++
        if linked then [⟨config, type, data, flag⟩] else [] := by
  let tokens : Tokens := scNetwork :: c.cmd :: args
  have hown : fromSource scNetwork tokens = true := beq_self_eq_true _
  have hforeign : fromSource scAjaxsrv tokens = false := rfl
  let seen : ThreadRound (LinkWorld D) := ⟨config, s.world, tokens, .ok, 0 + 1⟩
  obtain ⟨after, hafter, hconfig, hdriver, hpublished⟩ :=
    threadTurn_ajax_put answer linked 3 tokens.length seen hentry (hput tokens tokens.length)
  rw [hforeign, Bool.not_false, Bool.and_true] at hpublished
  have hthreads : threadLoop c tokens.length
      (linkArrival dev readXml answer linked line).managers 0 ⟨config, s.world, tokens, .ok, 0⟩ =
        some after := by
    rw [threadLoop_link, threadTurn_network_own dev readXml hown, Option.bind_some]
    exact hafter
  have hmain : ∃ loop response, mainStep s (linkArrival dev readXml answer linked line) =
      some (⟨after.config, after.world, loop⟩, response) := by
    unfold mainStep
    rw [show (linkArrival dev readXml answer linked line).datagram = line from rfl, hreceive]
    simp only [Option.bind_eq_bind, Option.bind_some, hfront]
    rw [hthreads]
    exact ⟨_, _, rfl⟩
  obtain ⟨loop, response, hmain⟩ := hmain
  refine ⟨⟨after.config, after.world, loop⟩, ?_, hconfig, hdriver, hpublished⟩
  unfold linkLine
  rw [if_pos hloop, hmain, Option.map_some]

/-- A start of the chronometer sets the time of the start to zero, and is published. -/
lemma linkLine_start (linked : Bool) {s : MainState (LinkWorld D)} (hloop : s.loop = true) :
    ∃ t, linkLine dev readXml answer linked s startLine = some t ∧
      t.config.status.startTime = 0 ∧
      t.world.driver = s.world.driver ∧
      t.world.published = s.world.published ++
        if linked then [startEvent { s.config with status.startTime := 0 }] else [] := by
  have hreceive : receive startLine = some startLine := by decide
  obtain ⟨t, ht, hconfig, hdriver, hpublished⟩ := linkLine_published dev readXml answer linked
    hloop hreceive (mainFront_startLine s.config) rfl fun _ _ => rfl
  exact ⟨t, ht, by rw [hconfig], hdriver, hpublished⟩

/-! ## A poll -/

/-- The status of a chronometer in this state can be read, and tells that it runs. -/
def ShowsRunning (d : D) : Prop :=
  ∃ answer data, (dev.respond d statusRequest).1 = some answer ∧
    parseStatusXml readXml .zero answer = some (some data) ∧ data.running ≠ 0

lemma polledStatus_of_showsRunning {s : DriverState D} {d : D}
    (h : ShowsRunning dev readXml d) :
    ∃ data, polledStatus dev readXml { s with device := d } = some (some data) ∧
      data.running ≠ 0 := by
  obtain ⟨answer, data, hanswer, hdata, hrunning⟩ := h
  refine ⟨data, ?_, hrunning⟩
  unfold polledStatus
  simp only [sendrec_status, hanswer]
  exact hdata

/-- The driver after a poll that has read this status. -/
def polledDriver (config : Configuration) (driver : DriverState D) (device : D)
    (data : CanometrowebData) : DriverState D :=
  (pollResult dev config { driver with device } (some data)).2.2

/-- The line a poll sends to main, if any, and the driver it leaves. -/
def pollLine (config : Configuration) (s : DriverState D) :
    Option (Option CString × DriverState D) := do
  let (res, buffer, driver) ← (← moduleRead dev readXml config pollLength s).result
  return (if res < 0 then none else networkLine (buffer.getD []), driver)

lemma pollLine_eq (config : Configuration) {s : DriverState D} (hsem : s.sem ≠ 0)
    {data : CanometrowebData} (hseen : polledStatus dev readXml s = some (some data)) :
    pollLine dev readXml config s =
      some (networkLine (pollText config s.cwData data),
        (pollResult dev config s (some data)).2.2) := by
  unfold pollLine
  simp only [moduleRead_free dev readXml config hsem, hseen, Option.map_some,
    Option.bind_eq_bind, Option.bind_some, Outcome.result]
  rw [if_neg (by simp [pollResult])]
  rfl

/-- A turn of the loop of the network thread is a poll, and main's handling of its line. -/
theorem linkStep_eq_pollLine (linked : Bool) (s : MainState (LinkWorld D)) (device : D) :
    linkStep dev readXml answer linked s (.poll device) =
      (pollLine dev readXml s.config { s.world.driver with device }).bind fun r =>
        r.1.elim (some { s with world.driver := r.2 })
          (linkLine dev readXml answer linked { s with world.driver := r.2 }) := by
  unfold linkStep pollLine
  simp only [Option.bind_eq_bind, Option.bind_assoc, Option.pure_def, Option.bind_some]
  congr 1
  funext outcome
  congr 1
  funext ⟨res, buffer, driver⟩
  by_cases hres : res < 0
  · rw [if_pos hres, if_pos hres]
    rfl
  · rw [if_neg hres, if_neg hres]
    rcases networkLine (buffer.getD []) with - | line <;> rfl

/-- A turn of the loop of the network thread, where the status could be read. -/
lemma linkStep_poll (linked : Bool) {s : MainState (LinkWorld D)}
    (hsem : s.world.driver.sem ≠ 0) {device : D} {data : CanometrowebData}
    (hseen : polledStatus dev readXml { s.world.driver with device } = some (some data)) :
    linkStep dev readXml answer linked s (.poll device) =
      (networkLine (pollText s.config s.world.driver.cwData data)).elim
        (some { s with world.driver := polledDriver dev s.config s.world.driver device data })
        (linkLine dev readXml answer linked
          { s with world.driver := polledDriver dev s.config s.world.driver device data }) := by
  rw [linkStep_eq_pollLine, pollLine_eq (s := { s.world.driver with device }) dev readXml s.config
    hsem hseen]
  rfl

/-- The lock is free whenever a poll comes back. -/
lemma sem_of_linkStep_poll {linked : Bool} {s t : MainState (LinkWorld D)} {device : D}
    (h : linkStep dev readXml answer linked s (.poll device) = some t) :
    s.world.driver.sem ≠ 0 := by
  intro hsem
  simp [linkStep, moduleRead, semWait, hsem, Outcome.result] at h

/-- Without a link, a poll that sees the chronometer run keeps a start at zero. -/
lemma linkStep_unlinked {s t : MainState (LinkWorld D)} {device : D}
    (hzero : s.config.status.startTime = 0) (hdevice : ShowsRunning dev readXml device)
    (h : linkStep dev readXml answer false s (.poll device) = some t) :
    t.config.status.startTime = 0 ∧ t.world.published = s.world.published := by
  obtain ⟨data, hseen, hrunning⟩ := polledStatus_of_showsRunning dev readXml
    (s := s.world.driver) hdevice
  rw [linkStep_poll dev readXml answer false (sem_of_linkStep_poll dev readXml answer h) hseen] at h
  rcases runningText_cases s.config s.world.driver.cwData hrunning with
    htext | htext | ⟨word, args, c, hblank, hne, hword, hc, hnul, hline⟩
  · rw [htext, networkLine_start, Option.elim_some] at h
    have hloop : s.loop = true := by
      by_contra hover
      rw [linkLine, if_neg hover] at h
      cases h
    obtain ⟨u, hu, hstart, -, hpublished⟩ := linkLine_start dev readXml answer false
      (s := { s with
        world.driver := polledDriver dev s.config s.world.driver device data }) hloop
    cases hu.symm.trans h
    exact ⟨hstart, hpublished.trans (List.append_nil _)⟩
  · rw [htext] at h
    cases h
    exact ⟨hzero, rfl⟩
  · rw [hline, Option.elim_some] at h
    obtain ⟨hworld, front, hfront, hconfig⟩ :=
      linkLine_own dev readXml answer hblank hne hword hnul h
    rw [hconfig, hworld]
    exact ⟨(startTime_of_network_line hblank hne hword hc hfront).trans hzero, rfl⟩

/-- The first poll that sees the chronometer run starts it again. -/
lemma linkStep_first (linked : Bool) {s : MainState (LinkWorld D)} {device : D}
    (hloop : s.loop = true) (hsem : s.world.driver.sem ≠ 0)
    (hstopped : s.world.driver.cwData.running = 0) (hdevice : ShowsRunning dev readXml device) :
    ∃ t, linkStep dev readXml answer linked s (.poll device) = some t ∧
      t.config.status.startTime = 0 ∧
      t.world.published = s.world.published ++
        if linked then [startEvent { s.config with status.startTime := 0 }] else [] := by
  obtain ⟨data, hseen, hrunning⟩ := polledStatus_of_showsRunning dev readXml
    (s := s.world.driver) hdevice
  have hreport : report s.world.driver.cwData data = some .start := by
    rcases report_of_running s.world.driver.cwData hrunning with hstart | ⟨hstored, -⟩
    · exact hstart
    · exact absurd hstopped hstored
  obtain ⟨t, ht, hstart, -, hpublished⟩ := linkLine_start dev readXml answer linked
    (s := { s with world.driver := polledDriver dev s.config s.world.driver device data }) hloop
  refine ⟨t, ?_, hstart, hpublished⟩
  rw [linkStep_poll dev readXml answer linked hsem hseen, pollText, hreport]
  show (networkLine Report.start.text).elim _ _ = _
  rw [networkLine_start, Option.elim_some, ht]

/-! ## The order -/

/-- The time of a start with these arguments. -/
def startArg (args : Tokens) : ℤ := (args.head?.map strtol).getD 0

lemma mainMgrStart_eq (config : Configuration) (source word : CString) (args : Tokens) :
    mainMgrStart config (source :: word :: args) (source :: word :: args).length =
      some (0, { config with status.startTime := startArg args }) := by
  rcases args with - | ⟨arg, args⟩
  · rfl
  · simp [mainMgrStart, startArg]

/-- The turn of the network manager for a start of another source. -/
lemma threadTurn_network_start {n ntokens : ℕ} {r t : ThreadRound (LinkWorld D)}
    {source : CString} {args : Tokens} (hsource : source ≠ scNetwork)
    (htokens : r.tokens = source :: Command.start.cmd :: args)
    (h : threadTurn .start ntokens r n (networkSlot dev readXml) = some t) :
    t.config = r.config ∧ t.world.driver.sem ≠ 0 ∧
      t.world.driver.cwData = r.world.driver.cwData := by
  have hindex : ¬ (1 : ℤ) < 0 := by decide
  obtain ⟨args', ntokens', hcall⟩ :=
    netMgrDefault_eq hsource "0".toList Command.start.cmd args ntokens
  have hhandler : (netMgrEntries .start).map (networkHandler dev readXml) =
      some (networkHandler dev readXml netMgrStart) := rfl
  rw [networkSlot, threadTurn_of_some hindex hhandler] at h
  obtain ⟨⟨res, config, world, tokens⟩, hresult, rfl⟩ := Option.map_eq_some_iff.mp h
  simp only [networkHandler, htokens, netMgrStart, hcall] at hresult
  obtain ⟨outcome, houtcome, hresult⟩ := Option.bind_eq_some_iff.mp hresult
  have hsem : r.world.driver.sem ≠ 0 := by
    intro hsem
    simp only [moduleWrite, semWait, hsem, if_true, Option.some.injEq] at houtcome
    subst houtcome
    cases hresult
  obtain ⟨res', hwrite⟩ := moduleWrite_order dev readXml r.config source args' hsem (.inl rfl)
  cases hwrite.symm.trans houtcome
  cases hresult
  exact ⟨rfl, hsem, rfl⟩

/-- The turn of the ajax manager for a start. -/
lemma threadTurn_ajax_start {linked : Bool} {n ntokens : ℕ} {r t : ThreadRound (LinkWorld D)}
    (h : threadTurn .start ntokens r n (ajaxSlot answer linked) = some t) :
    t.config = r.config ∧ t.world.driver = r.world.driver := by
  obtain ⟨u, hu, hconfig, hdriver, -⟩ :=
    threadTurn_ajax_put (c := .start) answer linked n ntokens r rfl rfl
  cases hu.symm.trans h
  exact ⟨hconfig, hdriver⟩

/-- An order that has been carried out leaves its time, and what the polls have stored. -/
lemma linkLine_ordered {linked : Bool} {s t : MainState (LinkWorld D)} {datagram : List Char}
    {buffer source : CString} {args : Tokens} (hreceive : receive datagram = some buffer)
    (hline : parseLine buffer = some (.command .start (source :: Command.start.cmd :: args)))
    (hsource : source ≠ scNetwork)
    (h : linkLine dev readXml answer linked s datagram = some t) :
    t.config.status.startTime = startArg args ∧ t.world.driver.sem ≠ 0 ∧
      t.world.driver.cwData.running = s.world.driver.cwData.running := by
  have hfront : mainFront s.config buffer = some (.dispatch .start
      (source :: Command.start.cmd :: args)
      { s.config with status.startTime := startArg args }) := by
    rw [mainFront_command hline, mainMgrEntries, mainMgrStart_eq]
    rfl
  unfold linkLine at h
  split_ifs at h
  obtain ⟨⟨t', response⟩, hmain, rfl⟩ := Option.map_eq_some_iff.mp h
  obtain ⟨buffer', hreceive', hmain⟩ := Option.bind_eq_some_iff.mp hmain
  cases hreceive.symm.trans hreceive'
  rw [hfront, Option.bind_eq_bind, Option.bind_some] at hmain
  obtain ⟨r, hloop, hmain⟩ := Option.bind_eq_some_iff.mp hmain
  cases hmain
  rw [threadLoop_link] at hloop
  obtain ⟨r', hnetwork, hajax⟩ := Option.bind_eq_some_iff.mp hloop
  obtain ⟨hconfig, hsem, hdata⟩ := threadTurn_network_start dev readXml hsource rfl hnetwork
  obtain ⟨hconfig', hdriver⟩ := threadTurn_ajax_start answer hajax
  show r.config.status.startTime = _ ∧ r.world.driver.sem ≠ 0 ∧ r.world.driver.cwData.running = _
  rw [hconfig', hconfig, hdriver, hdata]
  exact ⟨rfl, hsem, rfl⟩

/-! ## The start afterwards -/

/-- The starts published. -/
def starts (s : MainState (LinkWorld D)) : List PutEvent :=
  s.world.published.filter fun event => event.type = "crono_start".toList

/-- The time of the start is the one ordered, and no start has been published but these. -/
structure StartKept (t : ℤ) (published : List PutEvent) (s : MainState (LinkWorld D)) : Prop where
  time : s.config.status.startTime = t
  published : starts s = published

/-- **A start that comes back.** A start at the time `t`, of another source than the chronometer,
is carried out while the driver has stored a stopped chronometer, and the polls that follow see
it run.  They keep the time of the start and publish no other start if and only if `t` is zero
and there is no link with AgilityContest. -/
theorem start_survives_iff {linked : Bool} {s s' : MainState (LinkWorld D)}
    {datagram : List Char} {buffer source : CString} {args : Tokens}
    (hreceive : receive datagram = some buffer)
    (hline : parseLine buffer = some (.command .start (source :: Command.start.cmd :: args)))
    (hsource : source ≠ scNetwork) (hstopped : s.world.driver.cwData.running = 0)
    (hstep : linkStep dev readXml answer linked s (.line datagram) = some s')
    (hloop : s'.loop = true) {devices : List D} (hne : devices ≠ [])
    (hdevices : ∀ device ∈ devices, ShowsRunning dev readXml device) :
    Always (linkStep dev readXml answer linked) (StartKept (startArg args) (starts s')) s'
        (devices.map .poll) ↔
      startArg args = 0 ∧ linked = false := by
  obtain ⟨htime, hsem, hrunning⟩ :=
    linkLine_ordered dev readXml answer hreceive hline hsource hstep
  rw [hstopped] at hrunning
  constructor
  · intro hkept
    rcases devices with - | ⟨device, devices⟩
    · exact absurd rfl hne
    · obtain ⟨t, ht, hzero, hpublished⟩ := linkStep_first dev readXml answer linked hloop hsem
        hrunning (hdevices device (by simp))
      have hfirst := (hkept.2 t ht).head
      refine ⟨hfirst.time.symm.trans hzero, ?_⟩
      by_contra hlinked
      have hsame := hfirst.published
      rw [Bool.not_eq_false] at hlinked
      rw [starts, hpublished, hlinked, List.filter_append, starts, List.append_right_eq_self] at hsame
      exact List.cons_ne_nil _ _ hsame
  · rintro ⟨hzero, rfl⟩
    have hinit : s'.config.status.startTime = 0 ∧ s'.world.published = s'.world.published :=
      ⟨htime.trans hzero, rfl⟩
    have hpolls : ∀ input ∈ devices.map LinkInput.poll,
        ∃ device, input = .poll device ∧ ShowsRunning dev readXml device := by
      intro input hinput
      obtain ⟨device, hdevice, rfl⟩ := List.mem_map.mp hinput
      exact ⟨device, rfl, hdevices device hdevice⟩
    have hall : Always (linkStep dev readXml answer false)
        (fun u => u.config.status.startTime = 0 ∧ u.world.published = s'.world.published) s'
        (devices.map .poll) := by
      refine always_of_along (fun u input v hu hinput hv => ?_) hinit (along_of_forall hpolls s')
      obtain ⟨device, rfl, hdevice⟩ := hinput
      obtain ⟨hzero', hpublished⟩ := linkStep_unlinked dev readXml answer hu.1 hdevice hv
      exact ⟨hzero', hpublished.trans hu.2⟩
    refine hall.imp fun u hu => ⟨hu.1.trans hzero.symm, ?_⟩
    rw [starts, hu.2, starts]

/-- The program with the chronometer of the button, which is stopped. -/
def buttonLink : MainState (LinkWorld Bool) :=
  ⟨defaultOptions, ⟨⟨.zero, .zero, 1, false⟩, []⟩, true⟩

/-- A step of it, with a link whose requests succeed. -/
def buttonLinkStep : MainState (LinkWorld Bool) → LinkInput Bool → Option (MainState (LinkWorld Bool)) :=
  linkStep buttonDevice flatXml (fun _ => 0) true

/-- A start at 5000 is carried out, and the law says that it does not survive. -/
theorem start_survives_iff_button :
    ∃ s', buttonLinkStep buttonLink (.line "ac_server start 5000".toList) = some s' ∧
      (Always buttonLinkStep (StartKept (startArg ["5000".toList]) (starts s')) s'
          [.poll true] ↔
        startArg ["5000".toList] = 0 ∧ true = false) := by
  have hloop : (buttonLinkStep buttonLink (.line "ac_server start 5000".toList)).map
      MainState.loop = some true := by decide
  obtain ⟨s', hstep, hloop⟩ := Option.map_eq_some_iff.mp hloop
  have hline : parseLine "ac_server start 5000".toList =
      some (.command .start (scAjaxsrv :: Command.start.cmd :: ["5000".toList])) := by decide
  have hdevices : ∀ device ∈ [true], ShowsRunning buttonDevice flatXml device := by
    intro device hdevice
    obtain rfl := List.mem_singleton.mp hdevice
    exact ⟨buttonPage true, .shows 1 0, rfl, buttonPage_read true, by decide⟩
  exact ⟨s', hstep, start_survives_iff buttonDevice flatXml (fun _ => 0) rfl hline (by decide) rfl
    hstep hloop (List.cons_ne_nil _ _) hdevices⟩

/-- A start of AgilityContest at 5000 is set to zero by the next poll. -/
theorem start_comes_back :
    ¬ ∀ s', buttonLinkStep buttonLink (.line "ac_server start 5000".toList) = some s' →
      Always buttonLinkStep (StartKept 5000 (starts s')) s' [.poll true] := by
  intro h
  have hrun : (run buttonLinkStep buttonLink
      [.line "ac_server start 5000".toList, .poll true]).map
        (fun s => s.config.status.startTime) = some 0 := by decide
  obtain ⟨t, ht, hzero⟩ := Option.map_eq_some_iff.mp hrun
  obtain ⟨s', hs', hrest⟩ := Option.bind_eq_some_iff.mp ht
  have htime := ((h s' hs').of_run hrest).time
  rw [hzero] at htime
  exact absurd htime (by decide)

end SerialChrono
