import SerialChrono.Canometroweb.Pages
import SerialChrono.Canometroweb.Reports
import SerialChrono.Library.PartialRun
import Mathlib.Data.List.Chain

/-!
# Runs of polls

The network thread polls the chronometer again and again, and between two polls the main thread
may write commands to it.  The log of a run keeps what each poll saw and what it sent.  Three
laws are about that log: a run that ends while its time was seen moving is reported
(`ends_reported`); a stop or an intermediate time is only sent after a start (`reports_legal`);
and the commands that do not act on the chronometer do not change what the polls report, as
long as no `status` among them sees a change before the polls do (`inert_writes_unseen`).

The chronometer is free: each event says in which state it finds it.
-/

namespace SerialChrono

open CText PartialRun

variable {D : Type} (dev : Device D) (readXml : XmlReader)

/-! ## Runs -/

/-- A poll that could read the status: what it saw, and what it left in the buffer. -/
structure Poll where
  seen : CanometrowebData
  buffer : CString
  deriving DecidableEq, Repr

/-- A call of the driver, and the state in which it finds the chronometer. -/
inductive PollEvent (D : Type)
  | poll (config : Configuration) (device : D)
  | write (config : Configuration) (tokens : Tokens) (device : D)

/-- The driver, and the log of its polls. -/
structure PollRun (D : Type) where
  driver : DriverState D
  polls : List Poll

/-- The driver after `module_init`, with any data stored, and an empty log. -/
def PollRun.start (cwData : CanometrowebData) (cwConfig : CanometrowebConfig) (device : D) :
    PollRun D :=
  ⟨⟨cwData, cwConfig, 1, device⟩, []⟩

/-- The result of a call that comes back. -/
def Outcome.result {α : Type} : Outcome α → Option α
  | .returned a => some a
  | .blocked => none

/-- One call; there is no next state if it waits for ever. -/
def pollStep (r : PollRun D) : PollEvent D → Option (PollRun D)
  | .poll config device => do
    let s := { r.driver with device }
    let seen ← polledStatus dev readXml s
    let (_, buffer, driver) ← (← moduleRead dev readXml config pollLength s).result
    return ⟨driver, r.polls ++ seen.toList.map fun data => ⟨data, buffer.getD []⟩⟩
  | .write config tokens device => do
    let (_, driver) ← (← moduleWrite dev readXml config tokens { r.driver with device }).result
    return { r with driver }

/-- The run after a poll that has got this answer. -/
def PollRun.afterPoll (r : PollRun D) (config : Configuration) (device : D)
    (status : Option CanometrowebData) : PollRun D :=
  ⟨(pollResult dev config { r.driver with device } status).2.2,
    r.polls ++ status.toList.map fun data => ⟨data, pollText config r.driver.cwData data⟩⟩

lemma pollStep_poll {r : PollRun D} (hr : r.driver.sem ≠ 0) (config : Configuration)
    (device : D) :
    pollStep dev readXml r (.poll config device) =
      (polledStatus dev readXml { r.driver with device }).map
        (r.afterPoll dev config device) := by
  simp only [pollStep, moduleRead_free dev readXml config (s := { r.driver with device }) hr]
  rcases hstatus : polledStatus dev readXml { r.driver with device } with - | status
  · rfl
  · rcases status with - | data <;> rfl

/-- A lost lock ends the run. -/
lemma sem_ne_zero_of_step {r t : PollRun D} {event : PollEvent D}
    (h : pollStep dev readXml r event = some t) : r.driver.sem ≠ 0 := by
  intro hsem
  rcases event with ⟨config, device⟩ | ⟨config, tokens, device⟩
  · obtain ⟨seen, -, h⟩ := Option.bind_eq_some_iff.mp h
    simp [moduleRead, semWait, hsem, Outcome.result] at h
  · simp [pollStep, moduleWrite, semWait, hsem, Outcome.result] at h

/-- A `status` command: the one that writes over what the polls have stored. -/
def PollEvent.IsStatus : PollEvent D → Prop
  | .poll _ _ => False
  | .write _ tokens _ => isStatusWrite tokens

/-- What a step can do to the log and to the stored running state. -/
lemma pollStep_cases {r t : PollRun D} {event : PollEvent D} (hevent : ¬ event.IsStatus)
    (h : pollStep dev readXml r event = some t) :
    (t.polls = r.polls ∧ t.driver.cwData.SameRun r.driver.cwData) ∨
      ∃ config data, t.polls = r.polls ++ [⟨data, pollText config r.driver.cwData data⟩] ∧
        t.driver.cwData.SameRun data := by
  have hsem := sem_ne_zero_of_step dev readXml h
  rcases event with ⟨config, device⟩ | ⟨config, tokens, device⟩
  · rw [pollStep_poll dev readXml hsem] at h
    obtain ⟨status, -, rfl⟩ := Option.map_eq_some_iff.mp h
    rcases status with - | data
    · exact .inl ⟨List.append_nil _, rfl, rfl⟩
    · exact .inr ⟨config, data, rfl, pollData_run config r.driver.cwData data⟩
  · obtain ⟨outcome, houtcome, h⟩ := Option.bind_eq_some_iff.mp h
    rcases outcome with ⟨res, driver⟩ | -
    · cases h
      exact .inl ⟨rfl, moduleWrite_run (s := { r.driver with device }) dev readXml hevent houtcome⟩
    · cases h

/-! ## A display -/

/-- A chronometer that is polled with this flag and this time. -/
def CanometrowebData.shows (running tiempo : ℤ) : CanometrowebData :=
  { CanometrowebData.zero with running, tiempo }

/-- A chronometer that only shows a flag and a time. -/
def displayDevice : Device (ℤ × ℤ) :=
  ⟨fun display _ => (some ("<xml><running>".toList ++ printInt display.1 ++
    "</running><time>".toList ++ printInt display.2 ++ "</time></xml>".toList), display)⟩

/-- The static variable `cw_config` before anything is stored in it. -/
def CanometrowebConfig.zero : CanometrowebConfig := ⟨none, none, 0, 0, none, 0⟩

/-- The driver of the display, with nothing stored. -/
def displayStart : PollRun (ℤ × ℤ) := .start .zero .zero (0, 0)

/-- Polls that find the display in these states. -/
def displayPolls (displays : List (ℤ × ℤ)) : List (PollEvent (ℤ × ℤ)) :=
  displays.map (.poll defaultOptions)

/-! ## The texts -/

/-- The word a line begins with. -/
def hasWord (words : List String) (line : CString) : Bool :=
  words.any fun word => word.toList.isPrefixOf line

/-- The commands about the run. -/
def isRunCommand : CString → Bool := hasWord ["START", "STOP", "INT", "RESET"]

/-- The commands that start or end a run. -/
def isRunLimit : CString → Bool := hasWord ["START", "STOP", "RESET"]

lemma isRunCommand_text (r : Report) : isRunCommand r.text = true := by
  rcases r with - | tiempo | tiempo | - <;> rfl

/-- What a poll sends, by its first word. -/
lemma pollText_cases (config : Configuration) (stored received : CanometrowebData) :
    (∃ r, report stored received = some r ∧ pollText config stored received = r.text) ∨
      report stored received = none ∧
        isRunCommand (pollText config stored received) = false ∧
        isRunLimit (pollText config stored received) = false := by
  unfold pollText
  rcases report stored received with - | r
  · right
    refine ⟨rfl, ?_⟩
    dsimp only
    split_ifs
    · exact ⟨rfl, rfl⟩
    · exact ⟨rfl, rfl⟩
  · exact .inl ⟨r, rfl, rfl⟩

/-- Only a report has the text of one: the counters begin with another word. -/
lemma report_of_pollText {config : Configuration} {stored received : CanometrowebData}
    {r : Report} (h : pollText config stored received = r.text) :
    ∃ r' ∈ report stored received, r'.text = r.text := by
  rcases pollText_cases config stored received with ⟨r', hr', hbuffer⟩ | ⟨-, hother, -⟩
  · exact ⟨r', hr', hbuffer.symm.trans h⟩
  · rw [h, isRunCommand_text] at hother
    cases hother

/-! ## The end of a run -/

/-- Between two polls a run has ended, at another time than zero. -/
def EndsRun (p q : Poll) : Prop :=
  p.seen.running ≠ 0 ∧ q.seen.running = 0 ∧ q.seen.tiempo ≠ 0

/-- The end of a run is reported exactly if its time had been seen moving. -/
def PollRun.EndsReported (r : PollRun D) : Prop :=
  r.polls.IsChain fun p q => EndsRun p q →
    (q.buffer = (Report.stop q.seen.tiempo).text ↔ p.seen.tiempo ≠ 0)

/-- The driver has stored the running state of the last poll. -/
def PollRun.LastStored (r : PollRun D) : Prop :=
  ∀ p ∈ r.polls.getLast?, r.driver.cwData.SameRun p.seen

/-- A poll reports an end of the run exactly if the stored time is not zero. -/
lemma pollText_stop_iff (config : Configuration) {stored received : CanometrowebData}
    (hstored : stored.running ≠ 0) (hstopped : received.running = 0)
    (htiempo : received.tiempo ≠ 0) :
    pollText config stored received = (Report.stop received.tiempo).text ↔ stored.tiempo ≠ 0 := by
  by_cases hzero : stored.tiempo = 0
  · have hreport : report stored received = none := by
      simp [report, hstopped, htiempo, hzero]
    refine iff_of_false (fun htext => ?_) (not_not.mpr hzero)
    obtain ⟨r, hr, -⟩ := report_of_pollText htext
    rw [hreport] at hr
    cases hr
  · have hreport : report stored received = some (.stop received.tiempo) := by
      simp [report, hstopped, htiempo, hzero, hstored]
    refine iff_of_true ?_ hzero
    rw [pollText, hreport]

lemma CanometrowebData.SameRun.trans {a b c : CanometrowebData} (hab : a.SameRun b)
    (hbc : b.SameRun c) : a.SameRun c :=
  ⟨hab.1.trans hbc.1, hab.2.trans hbc.2⟩

lemma lastStored_step {r t : PollRun D} {event : PollEvent D} (hr : r.LastStored)
    (hevent : ¬ event.IsStatus) (h : pollStep dev readXml r event = some t) : t.LastStored := by
  intro p hp
  rcases pollStep_cases dev readXml hevent h with ⟨hpolls, hrun⟩ | ⟨config, data, hpolls, hrun⟩
  · rw [hpolls] at hp
    exact hrun.trans (hr p hp)
  · rw [hpolls, List.getLast?_concat, Option.mem_some_iff] at hp
    rw [← hp]
    exact hrun

lemma endsReported_step {r t : PollRun D} {event : PollEvent D} (hr : r.EndsReported)
    (hlast : r.LastStored) (hevent : ¬ event.IsStatus)
    (h : pollStep dev readXml r event = some t) : t.EndsReported := by
  unfold PollRun.EndsReported
  rcases pollStep_cases dev readXml hevent h with ⟨hpolls, -⟩ | ⟨config, data, hpolls, -⟩
  · rw [hpolls]
    exact hr
  · rw [hpolls, List.isChain_append]
    refine ⟨hr, List.isChain_singleton _, fun p hp q hq => ?_⟩
    obtain rfl := Option.mem_some_iff.mp hq
    rintro ⟨hrunning, hstopped, htiempo⟩
    obtain ⟨hsameRunning, hsameTiempo⟩ := hlast p hp
    rw [← hsameRunning] at hrunning
    rw [← hsameTiempo]
    exact pollText_stop_iff config hrunning hstopped htiempo

/-- **The end of a run.** In every run of polls and of commands other than `status`: of two
consecutive polls between which a run has ended, the second reports its final time if and only
if the first saw another time than zero. -/
theorem ends_reported (cwData : CanometrowebData) (cwConfig : CanometrowebConfig) (device : D)
    {events : List (PollEvent D)} (hevents : ∀ event ∈ events, ¬ event.IsStatus) :
    Always (pollStep dev readXml) PollRun.EndsReported (.start cwData cwConfig device) events := by
  have hlast : (PollRun.start cwData cwConfig device).LastStored := fun p hp => by cases hp
  exact always_of_along_of_inv
    (fun r event t hr hevent h => lastStored_step dev readXml hr hevent h)
    (fun r event t hlast hr hevent h => endsReported_step dev readXml hr hlast hevent h)
    hlast List.IsChain.nil (along_of_forall hevents _)

/-- The end of a short run is reported, if the run was seen at another time than zero. -/
theorem ends_reported_display :
    Always (pollStep displayDevice flatXml) PollRun.EndsReported displayStart
      (displayPolls [(1, 0), (1, 70), (0, 95)]) :=
  ends_reported displayDevice flatXml .zero .zero (0, 0) (by
    intro event hevent
    obtain ⟨display, -, rfl⟩ := List.mem_map.mp hevent
    exact id)

/-- Every end of a run is reported. -/
def PollRun.EveryEndReported (r : PollRun D) : Prop :=
  r.polls.IsChain fun p q => EndsRun p q → q.buffer = (Report.stop q.seen.tiempo).text

/-- A run that begins and ends around one poll is not reported. -/
theorem short_run_unreported :
    ¬ ∀ displays, Always (pollStep displayDevice flatXml) PollRun.EveryEndReported displayStart
      (displayPolls displays) := by
  intro h
  have hpolls : (run (pollStep displayDevice flatXml) displayStart
      (displayPolls [(1, 0), (0, 5)])).map PollRun.polls =
        some [⟨.shows 1 0, "START 0\n".toList⟩, ⟨.shows 0 5, []⟩] := by
    decide
  obtain ⟨r, hr, hpolls⟩ := Option.map_eq_some_iff.mp hpolls
  have hall := (h [(1, 0), (0, 5)]).of_run hr
  unfold PollRun.EveryEndReported at hall
  rw [hpolls, List.isChain_pair] at hall
  exact absurd (hall ⟨by decide, by decide, by decide⟩) (by decide)

/-! ## Only after a start -/

/-- The last command that started or ended a run. -/
def lastLimit (polls : List Poll) : Option CString :=
  ((polls.map Poll.buffer).filter isRunLimit).getLast?

/-- A stop or an intermediate time. -/
def isTiming (line : CString) : Prop :=
  ∃ tiempo, line = (Report.stop tiempo).text ∨ line = (Report.int tiempo).text

/-- Stops and intermediate times come after a start, with nothing between them that ends the
run. -/
def PollRun.Legal (r : PollRun D) : Prop :=
  ∀ before p, before ++ [p] <+: r.polls → isTiming p.buffer →
    lastLimit before = some Report.start.text

/-- While the stored running flag is set, the last command was a start. -/
def PollRun.Started (r : PollRun D) : Prop :=
  r.driver.cwData.running ≠ 0 → lastLimit r.polls = some Report.start.text

lemma lastLimit_concat (polls : List Poll) (p : Poll) :
    lastLimit (polls ++ [p]) = if isRunLimit p.buffer then some p.buffer else lastLimit polls := by
  unfold lastLimit
  rw [List.map_append, List.map_singleton, List.filter_append, List.filter_singleton]
  rcases isRunLimit p.buffer
  · exact congrArg List.getLast? (List.append_nil _)
  · exact List.getLast?_concat

/-- A chronometer that was stopped can only have started, or gone back to zero. -/
lemma report_of_stopped {stored : CanometrowebData} (h : stored.running = 0)
    (received : CanometrowebData) :
    ∀ r ∈ report stored received, r = .start ∨ r = .reset := by
  intro r hr
  unfold report at hr
  simp only [h, if_true, true_and, true_or] at hr
  split_ifs at hr <;> cases hr
  · exact .inr rfl
  · exact .inl rfl

/-- A chronometer that runs has started, or was running and at most has an intermediate time. -/
lemma report_of_running (stored : CanometrowebData) {received : CanometrowebData}
    (h : received.running ≠ 0) :
    report stored received = some .start ∨
      stored.running ≠ 0 ∧ ∀ r ∈ report stored received, ∃ tiempo, r = .int tiempo := by
  unfold report
  rw [if_neg h]
  by_cases hstored : stored.running = 0
  · exact .inl (if_pos hstored)
  · rw [if_neg hstored]
    split_ifs
    · exact .inr ⟨hstored, by simp⟩
    · exact .inl rfl
    · exact .inr ⟨hstored, by simp⟩
    · exact .inr ⟨hstored, by simp⟩

/-- A stop or an intermediate time is only reported while the stored flag is set. -/
lemma running_of_isTiming {config : Configuration} {stored received : CanometrowebData}
    (h : isTiming (pollText config stored received)) : stored.running ≠ 0 := by
  intro hstopped
  obtain ⟨tiempo, htext⟩ := h
  obtain ⟨r, hr, hword⟩ : ∃ r ∈ report stored received,
      hasWord ["STOP", "INT"] r.text = true := by
    rcases htext with htext | htext
    · obtain ⟨r, hr, hr'⟩ := report_of_pollText htext
      exact ⟨r, hr, by rw [hr']; rfl⟩
    · obtain ⟨r, hr, hr'⟩ := report_of_pollText htext
      exact ⟨r, hr, by rw [hr']; rfl⟩
  rcases report_of_stopped hstopped received r hr with rfl | rfl
  · exact absurd hword (by decide)
  · exact absurd hword (by decide)

lemma started_step {r t : PollRun D} {event : PollEvent D} (hr : r.Started)
    (hevent : ¬ event.IsStatus) (h : pollStep dev readXml r event = some t) : t.Started := by
  intro hrunning
  rcases pollStep_cases dev readXml hevent h with ⟨hpolls, hrun⟩ | ⟨config, data, hpolls, hrun⟩
  · rw [hpolls]
    rw [hrun.1] at hrunning
    exact hr hrunning
  · rw [hpolls, lastLimit_concat]
    rw [hrun.1] at hrunning
    have hbuffer := pollText_cases config r.driver.cwData data
    rcases report_of_running r.driver.cwData hrunning with hstart | ⟨hstored, hint⟩
    · rw [hstart] at hbuffer
      rcases hbuffer with ⟨_, heq, htext⟩ | ⟨heq, -⟩
      · cases heq
        dsimp only
        rw [htext]
        rfl
      · cases heq
    · -- the start that set the stored flag is still the last limit
      have hlimit : isRunLimit (pollText config r.driver.cwData data) = false := by
        rcases hbuffer with ⟨report, hreport, htext⟩ | ⟨-, -, hother⟩
        · obtain ⟨tiempo, rfl⟩ := hint report hreport
          rw [htext]
          rfl
        · exact hother
      dsimp only
      rw [hlimit]
      exact hr hstored

lemma legal_step {r t : PollRun D} {event : PollEvent D} (hr : r.Legal) (hstarted : r.Started)
    (hevent : ¬ event.IsStatus) (h : pollStep dev readXml r event = some t) : t.Legal := by
  intro before p hbefore htiming
  rcases pollStep_cases dev readXml hevent h with ⟨hpolls, -⟩ | ⟨config, data, hpolls, -⟩
  · rw [hpolls] at hbefore
    exact hr before p hbefore htiming
  · rw [hpolls, List.prefix_concat_iff] at hbefore
    rcases hbefore with hall | hbefore
    · obtain ⟨rfl, hlast⟩ := List.append_inj' hall rfl
      obtain rfl := (List.cons.inj hlast).1
      exact hstarted (running_of_isTiming htiming)
    · exact hr before p hbefore htiming

/-- **The order of the reports.** In every run of polls and of commands other than `status`, from
a driver that has stored a stopped chronometer: when a poll sends a stop or an intermediate time,
the last start, stop or reset it has sent is a start. -/
theorem reports_legal {cwData : CanometrowebData} (hstopped : cwData.running = 0)
    (cwConfig : CanometrowebConfig) (device : D) {events : List (PollEvent D)}
    (hevents : ∀ event ∈ events, ¬ event.IsStatus) :
    Always (pollStep dev readXml) PollRun.Legal (.start cwData cwConfig device) events := by
  have hstarted : (PollRun.start cwData cwConfig device).Started :=
    fun hrunning => absurd hstopped hrunning
  have hlegal : (PollRun.start cwData cwConfig device).Legal := by
    intro before p hbefore
    exact absurd (List.prefix_nil.mp hbefore) (by simp)
  exact always_of_along_of_inv
    (fun r event t hr hevent h => started_step dev readXml hr hevent h)
    (fun r event t hstarted hr hevent h => legal_step dev readXml hr hstarted hevent h)
    hstarted hlegal (along_of_forall hevents _)

/-- Two runs of the display, with an `int` command in the first. -/
theorem reports_legal_display :
    Always (pollStep displayDevice flatXml) PollRun.Legal displayStart
      (displayPolls [(1, 0), (1, 40)] ++
        .write defaultOptions ["comm_server".toList, "int".toList, "41".toList] (1, 41) ::
        displayPolls [(0, 95), (1, 0), (0, 0)]) :=
  reports_legal displayDevice flatXml (by decide) .zero (0, 0) (by
    intro event hevent
    rcases List.mem_append.mp hevent with hevent | hevent
    · obtain ⟨display, -, rfl⟩ := List.mem_map.mp hevent
      exact id
    · rcases List.mem_cons.mp hevent with rfl | hevent
      · show ¬ isStatusWrite _
        decide
      · obtain ⟨display, -, rfl⟩ := List.mem_map.mp hevent
        exact id)

/-! ## Commands that do not act on the chronometer -/

/-- The commands that only read, or that the driver does not support. -/
def Command.inert : Command → Bool
  | .start | .stop | .walk | .down | .fault | .refusal | .elim | .data | .reset => false
  | _ => true

/-- A poll, or a command that is not one of those that act on the chronometer. -/
def PollEvent.Inert : PollEvent D → Prop
  | .poll _ _ => True
  | .write _ tokens _ => ∀ cmd ∈ tokens[1]?, ∀ c ∈ findCommand (toLower cmd), c.inert = true

instance : (event : PollEvent D) → Decidable event.Inert
  | .poll _ _ => .isTrue trivial
  | .write _ tokens _ => inferInstanceAs
    (Decidable (∀ cmd ∈ tokens[1]?, ∀ c ∈ findCommand (toLower cmd), c.inert = true))

def PollEvent.isPoll : PollEvent D → Bool
  | .poll _ _ => true
  | .write _ _ _ => false

/-- The commands about the run the polls have sent. -/
def PollRun.commands (r : PollRun D) : List CString :=
  (r.polls.map Poll.buffer).filter isRunCommand

/-- Two stored states that every poll takes for the same. -/
structure CanometrowebData.SameBaseline (a b : CanometrowebData) : Prop where
  running : a.running = 0 ↔ b.running = 0
  tiempo : a.tiempo = 0 ↔ b.tiempo = 0
  /-- While the chronometer runs, the time tells if it stands still. -/
  moving : a.running ≠ 0 → a.tiempo = b.tiempo

/-- A chronometer stored as stopped is taken to start; one stored as running at the same time is
not. -/
lemma report_started_iff (stored : CanometrowebData) :
    report stored (.shows 1 stored.tiempo) = some .start ↔ stored.running = 0 := by
  by_cases hrunning : stored.running = 0
  · simp [report, CanometrowebData.shows, hrunning]
  · by_cases htiempo : stored.tiempo = 0 <;>
      simp [report, CanometrowebData.shows, hrunning, htiempo]

lemma running_of_report_eq {a b : CanometrowebData}
    (h : ∀ received, report a received = report b received) (ha : a.running = 0) :
    b.running = 0 := by
  rw [← report_started_iff b, ← h]
  simp [report, CanometrowebData.shows, ha]

lemma tiempo_of_report_eq {a b : CanometrowebData}
    (h : ∀ received, report a received = report b received)
    (hrunning : a.running = 0 ↔ b.running = 0) : a.tiempo = 0 ↔ b.tiempo = 0 := by
  by_cases ha : a.running = 0
  · have hreset := h (.shows 0 0)
    have hb := hrunning.mp ha
    by_cases hat : a.tiempo = 0 <;> by_cases hbt : b.tiempo = 0 <;>
      simp_all [report, CanometrowebData.shows]
  · have hstop := h (.shows 0 1)
    have hb := fun hb => ha (hrunning.mpr hb)
    by_cases hat : a.tiempo = 0 <;> by_cases hbt : b.tiempo = 0 <;>
      simp_all [report, CanometrowebData.shows]

/-- What polls can tell apart: the two flags, and the time of a chronometer that runs. -/
theorem sameBaseline_iff (a b : CanometrowebData) :
    a.SameBaseline b ↔ ∀ received, report a received = report b received := by
  constructor
  · rintro ⟨hrunning, htiempo, hmoving⟩ received
    by_cases ha : a.running = 0
    · simp only [report, htiempo, ha, hrunning.mp ha, if_true, true_and, true_or]
    · have hb : ¬ b.running = 0 := fun hb => ha (hrunning.mpr hb)
      simp only [report, hmoving ha, ha, hb, if_false, false_and, false_or]
  · intro h
    have hrunning : a.running = 0 ↔ b.running = 0 :=
      ⟨running_of_report_eq h, running_of_report_eq fun received => (h received).symm⟩
    have htiempo := tiempo_of_report_eq h hrunning
    refine ⟨hrunning, htiempo, fun ha => ?_⟩
    by_cases hat : a.tiempo = 0
    · rw [hat, htiempo.mp hat]
    · have hb : ¬ b.running = 0 := fun hb => ha (hrunning.mpr hb)
      have hbt : ¬ b.tiempo = 0 := fun hbt => hat (htiempo.mpr hbt)
      have hint := h (.shows 1 a.tiempo)
      by_contra hne
      simp [report, CanometrowebData.shows, ha, hat, hb, hbt, Ne.symm hne] at hint

lemma CanometrowebData.SameRun.sameBaseline {a b : CanometrowebData} (h : a.SameRun b) :
    a.SameBaseline b :=
  ⟨by rw [h.1], by rw [h.2], fun _ => h.2⟩

lemma CanometrowebData.SameBaseline.trans {a b c : CanometrowebData} (hab : a.SameBaseline b)
    (hbc : b.SameBaseline c) : a.SameBaseline c :=
  (sameBaseline_iff a c).mpr fun received =>
    ((sameBaseline_iff a b).mp hab received).trans ((sameBaseline_iff b c).mp hbc received)

/-- What a `status` command stores: the answer of the chronometer, read over the stored data. -/
def statusOver (s : DriverState D) : Option (Option CanometrowebData) :=
  match (sendrec dev s "xml".toList none true).1 with
  | none => some none
  | some xml => parseStatusXml readXml s.cwData xml

/-- A `status` command, if there is one, finds nothing that a poll would take for a change. -/
def PollEvent.Keeps (r : PollRun D) : PollEvent D → Prop
  | .poll _ _ => True
  | .write _ tokens device => isStatusWrite tokens →
    ∀ data, statusOver dev readXml { r.driver with device } = some (some data) →
      data.SameBaseline r.driver.cwData

lemma moduleWrite_status {config : Configuration} {tokens : Tokens} {s t : DriverState D}
    {res : ℤ} (htokens : isStatusWrite tokens)
    (h : moduleWrite dev readXml config tokens s = some (.returned (res, t))) :
    t.cwData = s.cwData ∨ statusOver dev readXml s = some (some t.cwData) := by
  obtain ⟨cmd, hcmd, hbody⟩ := Option.bind_eq_some_iff.mp (semWait_returned h)
  unfold isStatusWrite at htokens
  rw [hcmd, Option.bind_some] at htokens
  rw [htokens] at hbody
  have hstatus : writeStatus dev readXml { s with sem := s.sem - 1 } = some (res, t) := hbody
  unfold writeStatus at hstatus
  unfold statusOver
  simp only [sendrec_status] at hstatus ⊢
  rcases hanswer : (dev.respond s.device statusRequest).1 with - | xml
  · simp only [hanswer, Option.some.injEq, Prod.mk.injEq] at hstatus
    rw [← hstatus.2]
    exact .inl rfl
  · simp only [hanswer] at hstatus
    obtain ⟨parsed, hparsed, hstatus⟩ := Option.bind_eq_some_iff.mp hstatus
    cases hstatus
    rcases parsed with - | data
    · exact .inl rfl
    · exact .inr hparsed

/-- A command that does not act on the chronometer keeps the log, the lock and the baseline. -/
lemma inert_write {r t : PollRun D} {config : Configuration} {tokens : Tokens} {device : D}
    (hsem : r.driver.sem = 1) (hinert : (PollEvent.write config tokens device).Inert)
    (hkeeps : (PollEvent.write config tokens device).Keeps dev readXml r)
    (h : pollStep dev readXml r (.write config tokens device) = some t) :
    t.polls = r.polls ∧ t.driver.sem = 1 ∧ t.driver.cwData.SameBaseline r.driver.cwData := by
  obtain ⟨outcome, houtcome, h⟩ := Option.bind_eq_some_iff.mp h
  obtain ⟨res, driver, rfl, hlock⟩ :=
    moduleWrite_sem (s := { r.driver with device }) dev readXml hsem houtcome
  cases h
  refine ⟨rfl, hlock.mpr fun cmd hcmd c hc hsync => ?_, ?_⟩
  · have hc := hinert cmd hcmd c hc
    rcases c <;> simp [Command.inert, Command.synchronizes] at hc hsync
  · by_cases hstatus : isStatusWrite tokens
    · rcases moduleWrite_status dev readXml hstatus houtcome with hsame | hover
      · exact CanometrowebData.SameRun.sameBaseline (hsame ▸ ⟨rfl, rfl⟩)
      · exact hkeeps hstatus driver.cwData hover
    · exact CanometrowebData.SameRun.sameBaseline
        (moduleWrite_run (s := { r.driver with device }) dev readXml hstatus houtcome)

/-- Two runs whose polls take the chronometer for the same and have sent the same. -/
structure PollRun.Agree (r t : PollRun D) : Prop where
  semLeft : r.driver.sem = 1
  semRight : t.driver.sem = 1
  baseline : r.driver.cwData.SameBaseline t.driver.cwData
  commands : r.commands = t.commands

lemma pollText_eq (config : Configuration) {a b : CanometrowebData} (h : a.SameBaseline b)
    (received : CanometrowebData) : pollText config a received = pollText config b received := by
  unfold pollText
  rw [(sameBaseline_iff a b).mp h received]

/-- A poll keeps two runs in agreement. -/
lemma agree_afterPoll {r t : PollRun D} (h : r.Agree t) (config : Configuration) (device : D)
    (status : Option CanometrowebData) :
    (r.afterPoll dev config device status).Agree (t.afterPoll dev config device status) := by
  rcases status with - | data
  · refine ⟨h.semLeft, h.semRight, h.baseline, ?_⟩
    simpa [PollRun.commands, PollRun.afterPoll] using h.commands
  · refine ⟨h.semLeft, h.semRight, ?_, ?_⟩
    · have hleft := pollData_run config r.driver.cwData data
      have hright := pollData_run config t.driver.cwData data
      exact CanometrowebData.SameRun.sameBaseline
        ⟨hleft.1.trans hright.1.symm, hleft.2.trans hright.2.symm⟩
    · have hcommands := h.commands
      simp only [PollRun.commands] at hcommands
      simp only [PollRun.commands, PollRun.afterPoll, List.map_append, List.filter_append,
        hcommands, pollText_eq config h.baseline data, Option.toList_some, List.map_singleton]

/-- The run without its commands keeps up with the run. -/
lemma agree_run {events : List (PollEvent D)} {r t u : PollRun D} (h : r.Agree t)
    (hinert : ∀ event ∈ events, event.Inert)
    (hkeeps : Along (pollStep dev readXml) (fun r event => event.Keeps dev readXml r) r events)
    (hrun : run (pollStep dev readXml) r events = some u) :
    ∃ v, run (pollStep dev readXml) t (events.filter PollEvent.isPoll) = some v ∧ u.Agree v := by
  induction events generalizing r t with
  | nil =>
    cases hrun
    exact ⟨t, rfl, h⟩
  | cons event events ih =>
    obtain ⟨r', hstep, hrest⟩ := Option.bind_eq_some_iff.mp hrun
    obtain ⟨hevent, hkeepsRest⟩ := hkeeps r' hstep
    have hinertRest : ∀ event ∈ events, event.Inert := fun e he => hinert e (by simp [he])
    rcases event with ⟨config, device⟩ | ⟨config, tokens, device⟩
    · have hleft : r.driver.sem ≠ 0 := by rw [h.semLeft]; decide
      have hright : t.driver.sem ≠ 0 := by rw [h.semRight]; decide
      rw [pollStep_poll dev readXml hleft] at hstep
      obtain ⟨status, hstatus, rfl⟩ := Option.map_eq_some_iff.mp hstep
      have hstep' : pollStep dev readXml t (.poll config device) =
          some (t.afterPoll dev config device status) := by
        rw [pollStep_poll dev readXml hright,
          show polledStatus dev readXml { t.driver with device } = some status from hstatus,
          Option.map_some]
      obtain ⟨v, hv, hagree⟩ :=
        ih (agree_afterPoll dev h config device status) hinertRest hkeepsRest hrest
      refine ⟨v, ?_, hagree⟩
      rw [List.filter_cons_of_pos rfl, run_cons, hstep']
      exact hv
    · obtain ⟨hpolls, hsem, hbaseline⟩ :=
        inert_write dev readXml h.semLeft (hinert _ (by simp)) hevent hstep
      have hagree : r'.Agree t := by
        refine ⟨hsem, h.semRight, hbaseline.trans h.baseline, ?_⟩
        rw [← h.commands, PollRun.commands, hpolls, PollRun.commands]
      obtain ⟨v, hv, hagree⟩ := ih hagree hinertRest hkeepsRest hrest
      exact ⟨v, by rwa [List.filter_cons_of_neg (by simp [PollEvent.isPoll])], hagree⟩

/-- **Commands that do not act.** Take a run of polls and of commands that only read or are not
supported.  If no `status` in it finds what a poll would take for a change, the polls send the
same starts, stops, intermediate times and resets as without the commands. -/
theorem inert_writes_unseen (cwData : CanometrowebData) (cwConfig : CanometrowebConfig)
    (device : D) {events : List (PollEvent D)} {r : PollRun D}
    (hinert : ∀ event ∈ events, event.Inert)
    (hkeeps : Along (pollStep dev readXml) (fun r event => event.Keeps dev readXml r)
      (.start cwData cwConfig device) events)
    (hrun : run (pollStep dev readXml) (.start cwData cwConfig device) events = some r) :
    ∃ t, run (pollStep dev readXml) (.start cwData cwConfig device)
        (events.filter PollEvent.isPoll) = some t ∧ r.commands = t.commands := by
  have hstart : (PollRun.start cwData cwConfig device).Agree (.start cwData cwConfig device) :=
    ⟨rfl, rfl, ⟨Iff.rfl, Iff.rfl, fun _ => rfl⟩, rfl⟩
  obtain ⟨t, ht, hagree⟩ := agree_run dev readXml hstart hinert hkeeps hrun
  exact ⟨t, ht, hagree.commands⟩

/-- A `status` and an `int` while the display is stopped. -/
theorem inert_writes_unseen_display :
    ∃ r t, run (pollStep displayDevice flatXml) displayStart
        [.write defaultOptions ["comm_server".toList, "status".toList] (0, 0),
          .write defaultOptions ["comm_server".toList, "int".toList, "0".toList] (0, 0),
          .poll defaultOptions (1, 0)] = some r ∧
      run (pollStep displayDevice flatXml) displayStart [.poll defaultOptions (1, 0)] = some t ∧
        r.commands = t.commands := by
  let events : List (PollEvent (ℤ × ℤ)) :=
    [.write defaultOptions ["comm_server".toList, "status".toList] (0, 0),
      .write defaultOptions ["comm_server".toList, "int".toList, "0".toList] (0, 0),
      .poll defaultOptions (1, 0)]
  obtain ⟨r, hr⟩ : ∃ r, run (pollStep displayDevice flatXml) displayStart events = some r :=
    Option.isSome_iff_exists.mp (by decide)
  have hinert : ∀ event ∈ events, event.Inert := by decide
  have hkeeps : Along (pollStep displayDevice flatXml)
      (fun r event => event.Keeps displayDevice flatXml r) displayStart events := by
    intro _ _
    refine ⟨fun _ data hdata => ?_, fun _ _ => ⟨fun hstatus => ?_, fun _ _ => ⟨trivial, trivial⟩⟩⟩
    · have hseen : statusOver displayDevice flatXml displayStart.driver = some (some .zero) := by
        decide
      cases hseen.symm.trans hdata
      exact ⟨Iff.rfl, Iff.rfl, fun _ => rfl⟩
    · exact absurd hstatus (by decide)
  obtain ⟨t, ht, hcommands⟩ := inert_writes_unseen displayDevice flatXml .zero .zero (0, 0)
    hinert hkeeps hr
  exact ⟨r, t, hr, ht, hcommands⟩

/-- A `status` that is the first to see the display run hides its start. -/
theorem status_hides_start :
    ¬ ∀ (events : List (PollEvent (ℤ × ℤ))) (r : PollRun (ℤ × ℤ)),
      (∀ event ∈ events, event.Inert) →
      run (pollStep displayDevice flatXml) displayStart events = some r →
      ∃ t, run (pollStep displayDevice flatXml) displayStart
          (events.filter PollEvent.isPoll) = some t ∧ r.commands = t.commands := by
  intro h
  let events : List (PollEvent (ℤ × ℤ)) :=
    [.write defaultOptions ["comm_server".toList, "status".toList] (1, 0),
      .poll defaultOptions (1, 5)]
  have hwith : (run (pollStep displayDevice flatXml) displayStart events).map PollRun.commands =
      some [] := by decide
  have hwithout : (run (pollStep displayDevice flatXml) displayStart
      (events.filter PollEvent.isPoll)).map PollRun.commands = some ["START 0\n".toList] := by
    decide
  obtain ⟨r, hr, hnone⟩ := Option.map_eq_some_iff.mp hwith
  obtain ⟨t, ht, hstart⟩ := Option.map_eq_some_iff.mp hwithout
  obtain ⟨u, hu, hsame⟩ := h events r (by decide) hr
  cases ht.symm.trans hu
  rw [hnone, hstart] at hsame
  cases hsame

end SerialChrono
