import SerialChrono.Browser.Chrono
import SerialChrono.Browser.Commands
import SerialChrono.Library.JsonText
import SerialChrono.Library.PartialRun

/-!
# The course time on the page and in the program (`crono.js`, `main_mgr.c`)

A run is begun, marked and ended by commands that come from a button of the page or from elsewhere.
The page handles its own at once and sends them to main with the timestamp it has found; the ones
from elsewhere come to main first, and if main accepts them, the web manager passes their text on,
in which the page reads the number again.  Both keep the start and the marks, the page all of them
one higher, because it takes a zero for a time that has not been set.

`Course` is the two together, and the run that is going on.  A mark or a stop that finds the page's
chronometer stopped is not about the run: the page ignores it.  `courseTimes_agree` says that both
find the same course time as long as the clock of the page does not go backwards, its numbers hold
the timestamps, it reads the numbers main has read, no other browser begins a run or resets, which
the page is not told, and no mark from elsewhere is -1, which one higher is zero after all.
-/

namespace SerialChrono

open CText JsNumber PartialRun

/-! ## The run -/

/-- The end of a run, with the course time main has recorded for the command that ended it. -/
structure CourseEnd where
  isLocal : Bool
  clock : ℤ
  recorded : ℤ
  deriving DecidableEq, Repr

/-- A run: the time on the page's clock when it began, the time main has recorded for the last
intermediate time, and its end. -/
structure CourseRun where
  startClock : ℤ
  marked : Option ℤ
  ended : Option CourseEnd
  deriving DecidableEq, Repr

def CourseRun.begin (clock : ℤ) : CourseRun := ⟨clock, none, none⟩

/-- An intermediate time; `config` is what main has left. -/
def CourseRun.mark (config : Configuration) (r : CourseRun) : CourseRun :=
  { r with marked := some (config.status.intTime - config.status.startTime) }

def CourseRun.finish (isLocal : Bool) (clock : ℤ) (config : Configuration) (r : CourseRun) :
    CourseRun :=
  { r with ended := some ⟨isLocal, clock, config.status.stopTime - config.status.startTime⟩ }

/-! ## The page and main -/

/-- The page, main, the time on the page's clock, and the run that is going on or has ended last. -/
structure Course where
  page : CronoPage
  config : Configuration
  clock : ℤ
  run : Option CourseRun

/-- The page is loaded while main may be doing anything. -/
def Course.initial (now : ℤ) (config : Configuration) : Course := ⟨.initial now, config, now, none⟩

/-- The run after a mark or a stop.  The page ignores one that finds its chronometer stopped: it is
not about the run. -/
def Course.noted (s : Course) (f : CourseRun → CourseRun) : Option CourseRun :=
  if s.page.chrono.started then s.run.map f else s.run

/-- Where a command comes from. -/
inductive Origin
  /-- A button of the page. -/
  | page
  /-- Any other source, with these arguments. -/
  | remote (source : CString) (args : Tokens)
  deriving DecidableEq, Repr

inductive CourseInput
  | start (now : ℤ) (origin : Origin)
  | int (now : ℤ) (origin : Origin)
  | stop (now : ℤ) (origin : Origin)
  | reset (now : ℤ) (origin : Origin)
  /-- The timer of an `int_run` fires. -/
  | resume (now : ℤ)
  /-- The timer of `run_chrono` fires. -/
  | tick (now : ℤ)
  deriving DecidableEq, Repr

def CourseInput.now : CourseInput → ℤ
  | .start now _ | .int now _ | .stop now _ | .reset now _ | .resume now | .tick now => now

variable (numbers : NumberText)

/-- The command main receives for what the page has written. -/
def Written.command : Written → Command
  | .reset => .reset
  | .start _ => .start
  | .int _ => .int
  | .stop _ => .stop

def Written.args : Written → Tokens
  | .reset => []
  | .start ts | .int ts | .stop ts => [numbers.text ts]

/-- Main handles what the page has written, if anything. -/
def handleWritten (config : Configuration) : Option Written → Option Configuration
  | none => some config
  | some w =>
    let tokens := scWebsrv :: w.command.cmd :: w.args numbers
    (mainMgrEntries w.command config tokens tokens.length).map Prod.snd

/-- A command of the page. -/
def Course.byPage (s : Course) (now : ℤ) (handled : CronoPage × Option Written)
    (run : Configuration → Option CourseRun) : Option Course :=
  (handleWritten numbers s.config handled.2).map fun config =>
    { page := handled.1, config, clock := now, run := run config }

/-- The number a function of the page is called with; a NaN or an infinity is not followed
further. -/
def wholeNumber : Number → Option ℤ
  | .whole x => some x
  | .nan | .infinite _ => none

/-- The functions `parseCommand` calls, as far as the chronometer of the page is concerned. -/
def CronoPage.obey (now : ℤ) (p : CronoPage) : ParsedCall → Option CronoPage
  | .reset => some (p.cReset now false).1
  | .start val => (wholeNumber val).map fun x => (p.startRun now x false).1
  | .int val => (wholeNumber val).map fun x => (p.intRun now x false).1
  | .stop val => (wholeNumber val).map fun x => (p.stopRun now x false).1
  | .msg _ | .walk _ | .down _ | .turn _ | .error _ | .bright _ | .unknown => some p

/-- A command from elsewhere, and what the run becomes if main accepts it and the web manager
passes it on. -/
def Course.byMain (s : Course) (now : ℤ) (c : Command) (source : CString) (args : Tokens)
    (run : Configuration → Option CourseRun) : Option Course := do
  let tokens := source :: c.cmd :: args
  let (res, config) ← mainMgrEntries c s.config tokens tokens.length
  if res < 0 then return { s with config, clock := now }
  else do
    let handler ← webMgrEntries c
    let call ← handler config tokens tokens.length
    match call.queued with
    | none => return { s with config, clock := now }
    | some text =>
      let page ← s.page.obey now (parseCommand text)
      return { page, config, clock := now, run := run config }

/-- One command or one timer. -/
def courseStep (s : Course) : CourseInput → Option Course
  | .start now .page =>
    s.byPage numbers now (s.page.startRun now 0 true) fun _ => some (.begin now)
  | .start now (.remote source args) =>
    s.byMain now .start source args fun config =>
      if 0 ≤ config.status.startTime then some (.begin now) else none
  | .int now .page =>
    s.byPage numbers now (s.page.intRun now 0 true) fun config => s.noted (.mark config)
  | .int now (.remote source args) =>
    s.byMain now .int source args fun config => s.noted (.mark config)
  | .stop now .page =>
    s.byPage numbers now (s.page.stopRun now 0 true) fun config =>
      s.noted (.finish true now config)
  | .stop now (.remote source args) =>
    s.byMain now .stop source args fun config => s.noted (.finish false now config)
  | .reset now .page => s.byPage numbers now (s.page.cReset now true) fun _ => none
  | .reset now (.remote source args) => s.byMain now .reset source args fun _ => none
  | .resume now => (s.page.resume now).map fun page => { s with page, clock := now }
  | .tick now => (s.page.tick now).map fun page => { s with page, clock := now }

/-- The page has the times for the run that main has recorded for the same commands, and for a stop
on the page also the time that has gone by on its clock. -/
def Course.TimesAgree (s : Course) : Prop :=
  ∀ r ∈ s.run,
    (∀ time ∈ r.marked, sub s.page.chrono.pauseTime s.page.chrono.startTime = time) ∧
    ∀ e ∈ r.ended, sub s.page.chrono.stopTime s.page.chrono.startTime = e.recorded ∧
      (e.isLocal = true → sub s.page.chrono.stopTime s.page.chrono.startTime =
        e.clock - r.startClock)

instance (s : Course) : Decidable s.TimesAgree :=
  inferInstanceAs (Decidable (∀ r ∈ s.run, (∀ time ∈ r.marked, _) ∧ ∀ e ∈ r.ended, _ ∧ _))

/-- The number main reads in the arguments of a start. -/
def startNumber (args : Tokens) : ℤ := (args.head?.map strtol).getD 0

/-- The reply of the web manager carries these arguments as they are. -/
def Verbatim (args : Tokens) : Prop := ∀ a ∈ args, SevenBit a ∧ ∀ c ∈ a, JsonText.Ordinary c

/-- The numbers a mark makes the page compute with are whole and safe.  In a mark that comes to it
from elsewhere the page reads the number main has read, and it is not -1. -/
def Course.MarkWithin (s : Course) (now : ℤ) : Origin → Prop
  | .page => Safe (s.config.status.startTime + (now - s.page.alive_timestamp) + 1)
  | .remote source args => source ≠ scWebsrv → Verbatim args ∧ ∀ a ∈ args.head?,
    parseInt (joined args) = .whole (strtol a) ∧ Safe (strtol a + 1) ∧
      Safe (strtol a - s.config.status.startTime) ∧ strtol a ≠ -1

/-- A start comes from this page or from no browser. -/
def Course.StartWithin (s : Course) (now : ℤ) : Origin → Prop
  | .page => Safe (now - s.page.alive_timestamp + 1)
  | .remote source args => source ≠ scWebsrv ∧ Verbatim args ∧
    parseInt (orDefault "0".toList args) = .whole (startNumber args) ∧ Safe (startNumber args + 1)

def Origin.ResetWithin : Origin → Prop
  | .page => True
  | .remote source _ => source ≠ scWebsrv

/-- The clock does not go backwards, the timestamps are within what the page can handle, and no
other browser begins a run or resets. -/
def Course.Within (s : Course) (i : CourseInput) : Prop :=
  s.clock ≤ i.now ∧
    match i with
    | .start now origin => s.StartWithin now origin
    | .int now origin | .stop now origin => s.MarkWithin now origin
    | .reset _ origin => origin.ResetWithin
    | .resume _ | .tick _ => True

instance (args : Tokens) : Decidable (Verbatim args) :=
  decidable_of_iff (args.all fun a => decide (SevenBit a) && a.all fun c => JsonText.Ordinary c)
    (by simp [Verbatim])

instance (s : Course) (now : ℤ) : (origin : Origin) → Decidable (s.MarkWithin now origin)
  | .page => inferInstanceAs (Decidable (Safe _))
  | .remote _ _ => inferInstanceAs (Decidable (_ → _ ∧ ∀ a ∈ _, _ ∧ _ ∧ _ ∧ _))

instance (s : Course) (now : ℤ) : (origin : Origin) → Decidable (s.StartWithin now origin)
  | .page => inferInstanceAs (Decidable (Safe _))
  | .remote _ _ => inferInstanceAs (Decidable (_ ∧ _ ∧ _ ∧ _))

instance : (origin : Origin) → Decidable origin.ResetWithin
  | .page => inferInstanceAs (Decidable True)
  | .remote _ _ => inferInstanceAs (Decidable (_ ≠ _))

instance (s : Course) : (i : CourseInput) → Decidable (s.Within i)
  | .start _ _ => inferInstanceAs (Decidable (_ ∧ s.StartWithin _ _))
  | .int _ _ | .stop _ _ => inferInstanceAs (Decidable (_ ∧ s.MarkWithin _ _))
  | .reset _ origin => inferInstanceAs (Decidable (_ ∧ origin.ResetWithin))
  | .resume _ | .tick _ => inferInstanceAs (Decidable (_ ∧ True))

/-! ## What main does -/

section

variable {config : Configuration}

lemma mainMgrEntries_startArgs (source : CString) (args : Tokens) :
    mainMgrEntries .start config (source :: Command.start.cmd :: args) (args.length + 2) =
      some (0, { config with status.startTime := startNumber args }) := by
  cases args <;> simp [mainMgrEntries, mainMgrStart, startNumber]

lemma mainMgrEntries_intArg (source arg : CString) (rest : Tokens)
    (h : 0 ≤ config.status.startTime) :
    mainMgrEntries .int config (source :: Command.int.cmd :: arg :: rest) (rest.length + 3) =
      some (0, { config with status.intTime := strtol arg }) := by
  simp [mainMgrEntries, mainMgrInt, not_lt.mpr h]

lemma mainMgrEntries_stopArg (source arg : CString) (rest : Tokens)
    (h : 0 ≤ config.status.startTime) :
    mainMgrEntries .stop config (source :: Command.stop.cmd :: arg :: rest) (rest.length + 3) =
      some (0, { config with status.stopTime := strtol arg }) := by
  simp [mainMgrEntries, mainMgrStop, not_lt.mpr h]

end

section

variable {c : Command} {config config' : Configuration} {source : CString} {args : Tokens} {res : ℤ}

/-- A mark leaves the start alone. -/
lemma startTime_mark (hc : c = .int ∨ c = .stop) {tokens : Tokens} {n : ℕ}
    (hentry : mainMgrEntries c config tokens n = some (res, config')) :
    config'.status.startTime = config.status.startTime := by
  rcases hc with rfl | rfl
  · simp only [mainMgrEntries, mainMgrInt] at hentry
    split_ifs at hentry
    · cases hentry
      rfl
    · cases hentry
      rfl
    · obtain ⟨arg, -, hconfig⟩ := Option.map_eq_some_iff.mp hentry
      cases hconfig
      rfl
  · simp only [mainMgrEntries, mainMgrStop] at hentry
    split_ifs at hentry
    · cases hentry
      rfl
    · cases hentry
      rfl
    · obtain ⟨arg, -, hconfig⟩ := Option.map_eq_some_iff.mp hentry
      cases hconfig
      rfl

/-- Main accepts a mark only in a run and with an argument. -/
lemma mark_accepted (hc : c = .int ∨ c = .stop) (hres : ¬ res < 0)
    (hentry : mainMgrEntries c config (source :: c.cmd :: args) (args.length + 2) =
      some (res, config')) : 0 ≤ config.status.startTime ∧ ∃ arg rest, args = arg :: rest := by
  have hspec := mainMgrEntries_spec hentry
  exact ⟨not_lt.mp fun hneg => hres (hspec.1.mpr (.inl ⟨hc, .inl hneg⟩)),
    List.exists_cons_of_ne_nil (args_ne_nil_of_mark hc hres hentry)⟩

end

/-- A number the page has written is the number main reads. -/
lemma strtol_text {x : ℤ} (h : Safe x) : strtol (numbers.text x) = x := by
  have hread := strtol_printInt_append (x := x) (by unfold longMin; unfold Safe at h; omega)
    (by unfold longMax; unfold Safe at h; omega) endsNumber_nil
  rwa [List.append_nil, ← numbers.text_of_safe h] at hread

/-- Main handles an intermediate time of the page. -/
lemma handleWritten_int {config : Configuration} (hstart : 0 ≤ config.status.startTime) {ts : ℤ}
    (hts : Safe ts) :
    handleWritten numbers config (some (.int ts)) =
      some { config with status.intTime := ts } := by
  have hentry := mainMgrEntries_intArg scWebsrv (numbers.text ts) [] hstart
  rw [strtol_text numbers hts] at hentry
  exact congrArg (Option.map Prod.snd) hentry

/-- Main handles a stop of the page. -/
lemma handleWritten_stop {config : Configuration} (hstart : 0 ≤ config.status.startTime) {ts : ℤ}
    (hts : Safe ts) :
    handleWritten numbers config (some (.stop ts)) =
      some { config with status.stopTime := ts } := by
  have hentry := mainMgrEntries_stopArg scWebsrv (numbers.text ts) [] hstart
  rw [strtol_text numbers hts] at hentry
  exact congrArg (Option.map Prod.snd) hentry

/-! ## A run that is going on -/

/-- What holds while there is a run: main has the start and the page has it one higher, and the
page has the marks that far behind it that main has recorded. -/
structure Course.InRun (s : Course) (r : CourseRun) : Prop where
  start_nonneg : 0 ≤ s.config.status.startTime
  remote_ts : s.page.remote_ts = s.config.status.startTime
  local_ts : s.page.local_ts = sub r.startClock s.page.alive_timestamp
  alive_le : s.page.alive_timestamp ≤ r.startClock
  clock_le : r.startClock ≤ s.clock
  startTime : s.page.chrono.startTime = s.config.status.startTime + 1
  stopTime_ne : s.page.chrono.stopTime ≠ 0
  pauseTime_ne : s.page.chrono.pauseTime ≠ 0
  marked : ∀ time ∈ r.marked,
    s.page.chrono.pauseTime = time + s.page.chrono.startTime ∧ Safe time
  ended : ∀ e ∈ r.ended, s.page.chrono.stopTime = e.recorded + s.page.chrono.startTime ∧
    Safe e.recorded ∧ (e.isLocal = true → e.recorded = e.clock - r.startClock)

/-- The invariant of the page and main. -/
structure Course.Consistent (s : Course) : Prop where
  alive_le : s.page.alive_timestamp ≤ s.clock
  inRun : ∀ r ∈ s.run, s.InRun r

lemma Course.consistent_initial (now : ℤ) (config : Configuration) :
    (Course.initial now config).Consistent :=
  ⟨le_rfl, fun r hr => by cases hr⟩

/-- The page's difference of two marks is the one main has recorded. -/
lemma Course.InRun.timesAgree {s : Course} (h : ∀ r ∈ s.run, s.InRun r) : s.TimesAgree := by
  intro r hr
  have hrun := h r hr
  have hdiff {mark time : ℤ} (hmark : mark = time + s.page.chrono.startTime) (hsafe : Safe time) :
      sub mark s.page.chrono.startTime = time := by
    have hshift : mark - s.page.chrono.startTime = time := by omega
    rw [sub_eq (by rwa [hshift]), hshift]
  refine ⟨fun time htime => ?_, fun e he => ?_⟩
  · obtain ⟨hpause, hsafe⟩ := hrun.marked time htime
    exact hdiff hpause hsafe
  · obtain ⟨hstop, hsafe, hlocal⟩ := hrun.ended e he
    rw [hdiff hstop hsafe]
    exact ⟨rfl, hlocal⟩

/-- A run that has just begun on the page, with its start at `ts`. -/
lemma Course.inRun_start {s : Course} {now val ts : ℤ} {isLocal : Bool} {config : Configuration}
    (halive : s.page.alive_timestamp ≤ s.clock) (hclock : s.clock ≤ now)
    (hts : 0 ≤ ts) (hsafe : Safe (ts + 1))
    (hval : (if isLocal then sub now s.page.alive_timestamp else val) = ts)
    (hstart : config.status.startTime = ts) :
    Course.InRun ⟨(s.page.startRun now val isLocal).1, config, now, some (.begin now)⟩
      (.begin now) := by
  have hne : ts + 1 ≠ 0 := by omega
  have hadd : add ts 1 = ts + 1 := add_eq hsafe
  refine ⟨?_, ?_, rfl, halive.trans hclock, le_rfl, ?_, ?_, ?_, nofun, nofun⟩
  · simpa [hstart] using hts
  · simp [CronoPage.startRun, hval, hstart]
  · simp [CronoPage.startRun, hval, hadd, Chrono.start, Chrono.orNow, hne, hstart]
  · simp [CronoPage.startRun, hval, hadd, Chrono.start, Chrono.orNow, hne]
  · simp [CronoPage.startRun, hval, hadd, Chrono.start, Chrono.orNow, hne]

/-- The timestamp of a mark on the page, in a run: the start and the time since then. -/
lemma Course.InRun.markTimestamp_page {s : Course} {r : CourseRun} (h : s.InRun r) {now : ℤ}
    (hclock : s.clock ≤ now)
    (hsafe : Safe (s.config.status.startTime + (now - s.page.alive_timestamp) + 1)) :
    s.page.markTimestamp now 0 true = s.config.status.startTime + (now - r.startClock) := by
  have hstart := h.start_nonneg
  have halive := h.alive_le
  have hbegun := h.clock_le
  unfold Safe at hsafe
  have hlocal : Safe (now - s.page.alive_timestamp) := ⟨by omega, by omega⟩
  have hbegin : Safe (r.startClock - s.page.alive_timestamp) := ⟨by omega, by omega⟩
  have hsum : Safe (s.config.status.startTime + (now - s.page.alive_timestamp)) :=
    ⟨by omega, by omega⟩
  have hmark : s.config.status.startTime + (now - s.page.alive_timestamp) -
      (r.startClock - s.page.alive_timestamp) =
        s.config.status.startTime + (now - r.startClock) := by omega
  have hmarkSafe : Safe (s.config.status.startTime + (now - r.startClock)) :=
    ⟨by omega, by omega⟩
  unfold CronoPage.markTimestamp
  rw [if_pos rfl, sub_eq hlocal, h.remote_ts, h.local_ts, sub_eq hbegin]
  split
  · next hsame => omega
  · rw [add_eq hsum, sub_eq (by rwa [hmark]), hmark]

/-- It is safe, and not -1. -/
lemma Course.InRun.pageMark_safe {s : Course} {r : CourseRun} (h : s.InRun r) {now : ℤ}
    (hclock : s.clock ≤ now) (hwithin : s.MarkWithin now .page) :
    Safe (s.config.status.startTime + (now - r.startClock)) ∧
      Safe (s.config.status.startTime + (now - r.startClock) + 1) ∧
      Safe (s.config.status.startTime + (now - r.startClock) - s.config.status.startTime) ∧
      s.config.status.startTime + (now - r.startClock) ≠ -1 := by
  have hsafe : Safe (s.config.status.startTime + (now - s.page.alive_timestamp) + 1) := hwithin
  have hstart := h.start_nonneg
  have halive := h.alive_le
  have hbegun := h.clock_le
  unfold Safe at hsafe ⊢
  omega

/-- What does not change the page keeps the run, whatever main stores besides the start. -/
lemma Course.InRun.of_ignored {s : Course} {r : CourseRun} (h : s.InRun r) {now : ℤ}
    (hclock : s.clock ≤ now) {config : Configuration}
    (hstart : config.status.startTime = s.config.status.startTime) (run : Option CourseRun) :
    Course.InRun ⟨s.page, config, now, run⟩ r :=
  ⟨hstart ▸ h.start_nonneg, h.remote_ts.trans hstart.symm, h.local_ts, h.alive_le,
    h.clock_le.trans hclock, by rw [hstart]; exact h.startTime, h.stopTime_ne, h.pauseTime_ne,
    h.marked, h.ended⟩

/-- An intermediate time, which the page takes note of if its chronometer is started. -/
lemma Course.InRun.int {s : Course} (ts : ℤ) (h : ∀ r ∈ s.run, s.InRun r) {now val : ℤ}
    {isLocal : Bool} (hclock : s.clock ≤ now)
    (hts : ∀ r ∈ s.run, s.page.markTimestamp now val isLocal = ts ∧ Safe (ts + 1) ∧
      Safe (ts - s.config.status.startTime) ∧ ts ≠ -1)
    {config : Configuration} (hconfig : ∀ r ∈ s.run,
      config = { s.config with status.intTime := ts }) :
    ∀ r ∈ s.noted (.mark config), Course.InRun
      ⟨(s.page.intRun now val isLocal).1, config, now, s.noted (.mark config)⟩ r := by
  intro r' hr'
  unfold Course.noted at hr'
  split_ifs at hr' with hstarted
  · obtain ⟨r, hr, rfl⟩ := Option.map_eq_some_iff.mp hr'
    obtain ⟨hts, hsafe, hdiff, hne⟩ := hts r hr
    have hrun := h r hr
    have hpage : (s.page.intRun now val isLocal).1 =
        { s.page with
          chrono := s.page.chrono.pause now (some (ts + 1)), resumes := s.page.resumes + 1 } := by
      simp [CronoPage.intRun, hstarted, hts, add_eq hsafe]
    have hpause : ts + 1 ≠ 0 := by omega
    rw [hpage, hconfig r hr]
    refine ⟨hrun.start_nonneg, hrun.remote_ts, hrun.local_ts, hrun.alive_le,
      hrun.clock_le.trans hclock, hrun.startTime, hrun.stopTime_ne, hpause, ?_, hrun.ended⟩
    intro time htime
    cases htime
    refine ⟨?_, hdiff⟩
    have hstart := hrun.startTime
    dsimp only [Chrono.pause, Option.getD_some]
    omega
  · have hpage : (s.page.intRun now val isLocal).1 = s.page := by
      simp [CronoPage.intRun, hstarted]
    rw [hpage]
    exact (h r' hr').of_ignored hclock (by rw [hconfig r' hr']) _

/-- A stop, which the page takes note of if its chronometer is started. -/
lemma Course.InRun.stop {s : Course} (ts : ℤ) (h : ∀ r ∈ s.run, s.InRun r) {now val : ℤ}
    {isLocal : Bool} (hclock : s.clock ≤ now)
    (hts : ∀ r ∈ s.run, s.page.markTimestamp now val isLocal = ts ∧ Safe (ts + 1) ∧
      Safe (ts - s.config.status.startTime) ∧ ts ≠ -1)
    (hlocal : ∀ r ∈ s.run, isLocal = true →
      ts - s.config.status.startTime = now - r.startClock)
    {config : Configuration} (hconfig : ∀ r ∈ s.run,
      config = { s.config with status.stopTime := ts }) :
    ∀ r ∈ s.noted (.finish isLocal now config), Course.InRun
      ⟨(s.page.stopRun now val isLocal).1, config, now, s.noted (.finish isLocal now config)⟩
        r := by
  intro r' hr'
  unfold Course.noted at hr'
  split_ifs at hr' with hstarted
  · obtain ⟨r, hr, rfl⟩ := Option.map_eq_some_iff.mp hr'
    obtain ⟨hts, hsafe, hdiff, hne⟩ := hts r hr
    have hrun := h r hr
    have hpage : (s.page.stopRun now val isLocal).1 =
        { s.page with chrono := s.page.chrono.stop now (some (ts + 1)) } := by
      simp [CronoPage.stopRun, CronoPage.stopIfStarted, hstarted, hts, add_eq hsafe]
    have hstop : ts + 1 ≠ 0 := by omega
    rw [hpage, hconfig r hr]
    refine ⟨hrun.start_nonneg, hrun.remote_ts, hrun.local_ts, hrun.alive_le,
      hrun.clock_le.trans hclock, hrun.startTime, hstop, hrun.pauseTime_ne, hrun.marked, ?_⟩
    intro e he
    cases he
    refine ⟨?_, hdiff, hlocal r hr⟩
    have hstart := hrun.startTime
    dsimp only [Chrono.stop, Option.getD_some]
    omega
  · have hpage : (s.page.stopRun now val isLocal).1 = s.page := by
      simp [CronoPage.stopRun, CronoPage.stopIfStarted, hstarted]
    rw [hpage]
    exact (h r' hr').of_ignored hclock (by rw [hconfig r' hr']) _

/-- A timer sets no mark: none of them is zero. -/
lemma Course.InRun.timer {s : Course} {r : CourseRun} (h : s.InRun r) {now : ℤ} {c : Chrono}
    {resumes : ℕ} (hclock : s.clock ≤ now) (hstart : c.startTime = s.page.chrono.startTime)
    (hstop : c.stopTime = s.page.chrono.stopTime)
    (hpause : c.pauseTime = s.page.chrono.pauseTime) :
    Course.InRun { s with
      page := { s.page with chrono := Chrono.runChrono now c, resumes }, clock := now } r := by
  have hne : c.startTime ≠ 0 := by
    have := h.start_nonneg
    rw [hstart, h.startTime]
    omega
  have hmarks : (Chrono.runChrono now c).startTime = s.page.chrono.startTime ∧
      (Chrono.runChrono now c).stopTime = s.page.chrono.stopTime ∧
      (Chrono.runChrono now c).pauseTime = s.page.chrono.pauseTime := by
    have hstopNe := h.stopTime_ne
    have hpauseNe := h.pauseTime_ne
    rw [← hstop] at hstopNe
    rw [← hpause] at hpauseNe
    rw [Chrono.startTime_runChrono, Chrono.stopTime_runChrono, Chrono.pauseTime_runChrono,
      Chrono.orNow_of_ne now hne, Chrono.orNow_of_ne now hstopNe, Chrono.orNow_of_ne now hpauseNe]
    exact ⟨hstart, hstop, hpause⟩
  obtain ⟨hstart', hstop', hpause'⟩ := hmarks
  refine ⟨h.start_nonneg, h.remote_ts, h.local_ts, h.alive_le, h.clock_le.trans hclock, ?_, ?_, ?_,
    fun time htime => ?_, fun e he => ?_⟩
  · exact hstart'.trans h.startTime
  · exact fun hzero => h.stopTime_ne (hstop'.symm.trans hzero)
  · exact fun hzero => h.pauseTime_ne (hpause'.symm.trans hzero)
  · obtain ⟨hpaused, hsafe⟩ := h.marked time htime
    exact ⟨by rw [hpause', hstart']; exact hpaused, hsafe⟩
  · obtain ⟨hstopped, hsafe, hlocal⟩ := h.ended e he
    exact ⟨by rw [hstop', hstart']; exact hstopped, hsafe, hlocal⟩

/-! ## One step -/

@[simp] lemma alive_timestamp_intRun (now val : ℤ) (isLocal : Bool) (p : CronoPage) :
    (p.intRun now val isLocal).1.alive_timestamp = p.alive_timestamp := by
  unfold CronoPage.intRun
  dsimp only
  split <;> rfl

section

variable {numbers} {s t : Course} {now : ℤ} {source : CString} {args : Tokens}
  {run : Configuration → Option CourseRun}

lemma Course.byPage_spec {handled : CronoPage × Option Written}
    (h : s.byPage numbers now handled run = some t) :
    ∃ config, handleWritten numbers s.config handled.2 = some config ∧
      t = ⟨handled.1, config, now, run config⟩ := by
  obtain ⟨config, hconfig, ht⟩ := Option.map_eq_some_iff.mp h
  exact ⟨config, hconfig, ht.symm⟩

/-- The commands of a course. -/
def IsCourse (c : Command) : Prop := c = .start ∨ c = .int ∨ c = .stop ∨ c = .reset

/-- The web manager passes on what does not come from a browser. -/
lemma queued_eq_none_iff {c : Command} (hc : IsCourse c) {config : Configuration}
    {f : Configuration → Tokens → ℕ → Option WebCall} {call : WebCall} {n : ℕ}
    (hf : webMgrEntries c = some f) (hcall : f config (source :: args) n = some call) :
    call.queued = none ↔ source = scWebsrv := by
  have hmsg {call : WebCall} (h : webMgrSendMsg config (source :: args) n = some call) :
      call.queued = none ↔ source = scWebsrv := by
    unfold webMgrSendMsg at h
    split_ifs at h with hsource
    · cases h
      simpa [WebCall.ignored, fromSource] using hsource
    · obtain ⟨text, -, rfl⟩ := Option.map_eq_some_iff.mp h
      simpa [WebCall.send, fromSource] using hsource
  rcases hc with rfl | rfl | rfl | rfl
  · cases hf
    unfold webMgrSendStart webMgrSendDefault at hcall
    split_ifs at hcall with hsource
    · cases hcall
      simpa [WebCall.ignored, fromSource] using hsource
    · exact hmsg hcall
    · cases hcall
      simpa [WebCall.send, fromSource] using hsource
  all_goals
    cases hf
    exact hmsg hcall

/-- What becomes of a command from elsewhere: it is refused, or it is that of another browser, or
the page calls its function with the number `parseInt` reads. -/
lemma Course.byMain_spec {c : Command} (hc : IsCourse c)
    (h : s.byMain now c source args run = some t) :
    ∃ res config, mainMgrEntries c s.config (source :: c.cmd :: args) (args.length + 2) =
        some (res, config) ∧
      ((res < 0 ∨ source = scWebsrv) ∧ t = { s with config, clock := now } ∨
        ¬ res < 0 ∧ source ≠ scWebsrv ∧ ∃ page, s.page.obey now (c.pageCall config args) =
          some page ∧ t = ⟨page, config, now, run config⟩) := by
  obtain ⟨⟨res, config⟩, hentry, h⟩ := Option.bind_eq_some_iff.mp h
  refine ⟨res, config, hentry, ?_⟩
  dsimp only at h
  split_ifs at h with hres
  · cases h
    exact .inl ⟨.inl hres, rfl⟩
  · obtain ⟨f, hf, h⟩ := Option.bind_eq_some_iff.mp h
    obtain ⟨call, hcall, h⟩ := Option.bind_eq_some_iff.mp h
    split at h
    · next hqueued =>
      cases h
      exact .inl ⟨.inr ((queued_eq_none_iff hc hf hcall).mp hqueued), rfl⟩
    · next text htext =>
      obtain ⟨page, hpage, ht⟩ := Option.bind_eq_some_iff.mp h
      rw [parseCommand_eq ⟨res, hentry, hres⟩ hf hcall htext] at hpage
      have hsource : source ≠ scWebsrv := fun hweb =>
        nomatch htext.symm.trans ((queued_eq_none_iff hc hf hcall).mpr hweb)
      exact .inr ⟨hres, hsource, page, hpage, (Option.some.inj ht).symm⟩

/-- A start on the page. -/
lemma consistent_start_page (h : s.Consistent) (hclock : s.clock ≤ now)
    (hwithin : s.StartWithin now .page)
    (hstep : courseStep numbers s (.start now .page) = some t) : t.Consistent := by
  obtain ⟨config, hconfig, rfl⟩ := Course.byPage_spec hstep
  have halive := h.alive_le
  have hsafe : Safe (now - s.page.alive_timestamp + 1) := hwithin
  have hlocal : Safe (now - s.page.alive_timestamp) := by
    unfold Safe at hsafe ⊢
    omega
  have hwritten : (s.page.startRun now 0 true).2 =
      some (.start (now - s.page.alive_timestamp)) := by
    simp [CronoPage.startRun, sub_eq hlocal]
  have hstart : config.status.startTime = now - s.page.alive_timestamp := by
    rw [hwritten] at hconfig
    cases hconfig
    exact strtol_text numbers hlocal
  refine ⟨halive.trans hclock, fun r hr => ?_⟩
  cases hr
  exact Course.inRun_start halive hclock (by omega) hsafe (sub_eq hlocal) hstart

/-- A start from elsewhere. -/
lemma consistent_start_remote (h : s.Consistent) (hclock : s.clock ≤ now)
    (hwithin : s.StartWithin now (.remote source args))
    (hstep : courseStep numbers s (.start now (.remote source args)) = some t) :
    t.Consistent := by
  obtain ⟨hsource, -, hread, hsafe⟩ := hwithin
  simp only [courseStep] at hstep
  obtain ⟨res, config, hentry, ht⟩ := Course.byMain_spec (.inl rfl) hstep
  rw [mainMgrEntries_startArgs] at hentry
  cases hentry
  rcases ht with ⟨hres | hweb, -⟩ | ⟨-, -, page, hpage, rfl⟩
  · exact absurd hres (lt_irrefl 0)
  · exact absurd hweb hsource
  · rw [Command.pageCall, hread] at hpage
    cases hpage
    refine ⟨h.alive_le.trans hclock, fun r hr => ?_⟩
    by_cases hnonneg : 0 ≤ startNumber args
    · simp only [if_pos hnonneg] at hr ⊢
      cases hr
      exact Course.inRun_start h.alive_le hclock hnonneg hsafe rfl rfl
    · simp only [if_neg hnonneg] at hr
      cases hr

/-- An intermediate time from the page. -/
lemma consistent_int_page (h : s.Consistent) (hclock : s.clock ≤ now)
    (hwithin : s.MarkWithin now .page)
    (hstep : courseStep numbers s (.int now .page) = some t) : t.Consistent := by
  obtain ⟨config, hconfig, rfl⟩ := Course.byPage_spec hstep
  refine ⟨by simpa using h.alive_le.trans hclock, ?_⟩
  refine Course.InRun.int (s.page.markTimestamp now 0 true) h.inRun hclock
    (fun r hr => ⟨rfl, ?_⟩) fun r hr => ?_
  · obtain ⟨-, hmark⟩ := (h.inRun r hr).pageMark_safe hclock hwithin
    rwa [(h.inRun r hr).markTimestamp_page hclock hwithin]
  · have hwritten : (s.page.intRun now 0 true).2 =
        some (.int (s.page.markTimestamp now 0 true)) := rfl
    have hsafe := ((h.inRun r hr).pageMark_safe hclock hwithin).1
    rw [← (h.inRun r hr).markTimestamp_page hclock hwithin] at hsafe
    rw [hwritten, handleWritten_int numbers (h.inRun r hr).start_nonneg hsafe] at hconfig
    exact (Option.some.inj hconfig).symm

/-- A stop from the page. -/
lemma consistent_stop_page (h : s.Consistent) (hclock : s.clock ≤ now)
    (hwithin : s.MarkWithin now .page)
    (hstep : courseStep numbers s (.stop now .page) = some t) : t.Consistent := by
  obtain ⟨config, hconfig, rfl⟩ := Course.byPage_spec hstep
  refine ⟨h.alive_le.trans hclock, ?_⟩
  refine Course.InRun.stop (s.page.markTimestamp now 0 true) h.inRun hclock
    (fun r hr => ⟨rfl, ?_⟩) (fun r hr _ => ?_) fun r hr => ?_
  · obtain ⟨-, hmark⟩ := (h.inRun r hr).pageMark_safe hclock hwithin
    rwa [(h.inRun r hr).markTimestamp_page hclock hwithin]
  · rw [(h.inRun r hr).markTimestamp_page hclock hwithin]
    omega
  · have hwritten : (s.page.stopRun now 0 true).2 =
        some (.stop (s.page.markTimestamp now 0 true)) := rfl
    have hsafe := ((h.inRun r hr).pageMark_safe hclock hwithin).1
    rw [← (h.inRun r hr).markTimestamp_page hclock hwithin] at hsafe
    rw [hwritten, handleWritten_stop numbers (h.inRun r hr).start_nonneg hsafe] at hconfig
    exact (Option.some.inj hconfig).symm

/-- An intermediate time from elsewhere. -/
lemma consistent_int_remote (h : s.Consistent) (hclock : s.clock ≤ now)
    (hwithin : s.MarkWithin now (.remote source args))
    (hstep : courseStep numbers s (.int now (.remote source args)) = some t) : t.Consistent := by
  simp only [courseStep] at hstep
  obtain ⟨res, config, hentry, ht⟩ := Course.byMain_spec (.inr (.inl rfl)) hstep
  rcases ht with ⟨-, rfl⟩ | ⟨hres, hsource, page, hpage, rfl⟩
  · exact ⟨h.alive_le.trans hclock, fun r hr =>
      (h.inRun r hr).of_ignored hclock (startTime_mark (.inl rfl) hentry) _⟩
  · obtain ⟨hnonneg, arg, rest, rfl⟩ := mark_accepted (.inl rfl) hres hentry
    obtain ⟨-, hwithin⟩ := hwithin hsource
    obtain ⟨hread, hmark⟩ := hwithin arg rfl
    have haccept := hentry.symm.trans (mainMgrEntries_intArg source arg rest hnonneg)
    rw [Command.pageCall, hread] at hpage
    cases haccept
    cases hpage
    exact ⟨by simpa using h.alive_le.trans hclock,
      Course.InRun.int (strtol arg) h.inRun hclock (fun _ _ => ⟨rfl, hmark⟩) fun _ _ => rfl⟩

/-- A stop from elsewhere. -/
lemma consistent_stop_remote (h : s.Consistent) (hclock : s.clock ≤ now)
    (hwithin : s.MarkWithin now (.remote source args))
    (hstep : courseStep numbers s (.stop now (.remote source args)) = some t) : t.Consistent := by
  simp only [courseStep] at hstep
  obtain ⟨res, config, hentry, ht⟩ := Course.byMain_spec (.inr (.inr (.inl rfl))) hstep
  rcases ht with ⟨-, rfl⟩ | ⟨hres, hsource, page, hpage, rfl⟩
  · exact ⟨h.alive_le.trans hclock, fun r hr =>
      (h.inRun r hr).of_ignored hclock (startTime_mark (.inr rfl) hentry) _⟩
  · obtain ⟨hnonneg, arg, rest, rfl⟩ := mark_accepted (.inr rfl) hres hentry
    obtain ⟨-, hwithin⟩ := hwithin hsource
    obtain ⟨hread, hmark⟩ := hwithin arg rfl
    have haccept := hentry.symm.trans (mainMgrEntries_stopArg source arg rest hnonneg)
    rw [Command.pageCall, hread] at hpage
    cases haccept
    cases hpage
    exact ⟨h.alive_le.trans hclock,
      Course.InRun.stop (strtol arg) h.inRun hclock (fun _ _ => ⟨rfl, hmark⟩)
        (fun _ _ hlocal => absurd hlocal (by decide)) fun _ _ => rfl⟩

/-- A reset ends the run. -/
lemma consistent_reset {origin : Origin} (h : s.Consistent) (hclock : s.clock ≤ now)
    (hwithin : origin.ResetWithin)
    (hstep : courseStep numbers s (.reset now origin) = some t) : t.Consistent := by
  cases origin with
  | page =>
    obtain ⟨config, -, rfl⟩ := Course.byPage_spec hstep
    exact ⟨h.alive_le.trans hclock, nofun⟩
  | remote source args =>
    simp only [courseStep] at hstep
    obtain ⟨res, config, hentry, ht⟩ := Course.byMain_spec (.inr (.inr (.inr rfl))) hstep
    cases hentry
    rcases ht with ⟨hres | hweb, -⟩ | ⟨-, -, page, hpage, rfl⟩
    · exact absurd hres (lt_irrefl 0)
    · exact absurd hweb hwithin
    · cases hpage
      exact ⟨h.alive_le.trans hclock, nofun⟩

/-- A timer. -/
lemma consistent_timer {i : CourseInput} (hi : i = .resume now ∨ i = .tick now)
    (h : s.Consistent) (hclock : s.clock ≤ now) (hstep : courseStep numbers s i = some t) :
    t.Consistent := by
  rcases hi with rfl | rfl
  · obtain ⟨p, hp, rfl⟩ := Option.map_eq_some_iff.mp hstep
    unfold CronoPage.resume at hp
    split_ifs at hp
    cases hp
    exact ⟨h.alive_le.trans hclock, fun r hr => (h.inRun r hr).timer hclock rfl rfl rfl⟩
  · obtain ⟨p, hp, rfl⟩ := Option.map_eq_some_iff.mp hstep
    obtain ⟨c, hc, rfl⟩ := Option.map_eq_some_iff.mp hp
    unfold Chrono.tick at hc
    split_ifs at hc
    cases hc
    exact ⟨h.alive_le.trans hclock, fun r hr => (h.inRun r hr).timer hclock rfl rfl rfl⟩

lemma course_consistent_step {i : CourseInput} (h : s.Consistent) (hwithin : s.Within i)
    (hstep : courseStep numbers s i = some t) : t.Consistent := by
  obtain ⟨hclock, hinput⟩ := hwithin
  cases i with
  | start now origin =>
    cases origin with
    | page => exact consistent_start_page h hclock hinput hstep
    | remote source args => exact consistent_start_remote h hclock hinput hstep
  | int now origin =>
    cases origin with
    | page => exact consistent_int_page h hclock hinput hstep
    | remote source args => exact consistent_int_remote h hclock hinput hstep
  | stop now origin =>
    cases origin with
    | page => exact consistent_stop_page h hclock hinput hstep
    | remote source args => exact consistent_stop_remote h hclock hinput hstep
  | reset now origin => exact consistent_reset h hclock hinput hstep
  | resume now => exact consistent_timer (.inl rfl) h hclock hstep
  | tick now => exact consistent_timer (.inr rfl) h hclock hstep

end

/-! ## Runs -/

/-- **The course times agree.** For every sequence of starts, intermediate times, stops and resets,
from the page or from elsewhere, and of the timers of the page, from the moment it is loaded: in
every state the page has for the run the times that main has recorded, as long as each input is
`Within` what it can handle. -/
theorem courseTimes_agree (now : ℤ) (config : Configuration) (inputs : List CourseInput)
    (h : Along (courseStep numbers) Course.Within (.initial now config) inputs) :
    Always (courseStep numbers) Course.TimesAgree (.initial now config) inputs :=
  (always_of_along (fun _ _ _ hs hwithin hstep => course_consistent_step hs hwithin hstep)
    (Course.consistent_initial now config) h).imp fun _ hs => Course.InRun.timesAgree hs.inRun

/-- A start at 0, an intermediate time of 31500 milliseconds, a stop on the page, which is told
again by the display, and a second run that the display ends. -/
theorem courseTimes_agree_runs :
    Always (courseStep .decimal) Course.TimesAgree (.initial 1000 defaultOptions)
      [.start 5000 (.remote "comm_server".toList ["0".toList]),
        .int 36500 (.remote "comm_server".toList ["31500".toList]), .stop 47250 .page,
        .stop 47300 (.remote "comm_serial".toList ["42200".toList]), .start 60000 .page,
        .tick 60050, .stop 90000 (.remote "comm_serial".toList ["88970".toList])] :=
  courseTimes_agree .decimal 1000 defaultOptions _ (by decide +kernel)

/-- A stop at -1, two timestamps beyond the numbers of the page, a clock that has been set back, a
number the page reads otherwise, and a start from another browser: in each of these runs the page
has another time than main. -/
theorem courseTimes_differ :
    ¬ Always (courseStep .decimal) Course.TimesAgree (.initial 0 defaultOptions)
        [.start 1000 (.remote "comm_server".toList ["0".toList]),
          .stop 2000 (.remote "comm_server".toList ["-1".toList]), .tick 2050] ∧
      ¬ Always (courseStep .decimal) Course.TimesAgree (.initial 0 defaultOptions)
        [.start 1000 (.remote "comm_server".toList ["9007199254740992".toList]),
          .stop 2000 (.remote "comm_server".toList ["9007199254740994".toList])] ∧
      ¬ Always (courseStep .decimal) Course.TimesAgree (.initial 1000 defaultOptions)
        [.start 500 .page, .stop 2000 .page] ∧
      ¬ Always (courseStep .decimal) Course.TimesAgree (.initial 0 defaultOptions)
        [.start 1000 (.remote "comm_server".toList ["0".toList]),
          .stop 2000 (.remote "comm_server".toList ["0x10".toList])] ∧
      ¬ Always (courseStep .decimal) Course.TimesAgree (.initial 0 defaultOptions)
        [.start 1000 .page, .start 1500 (.remote scWebsrv ["700".toList]), .stop 2000 .page] := by
  decide +kernel

end SerialChrono
