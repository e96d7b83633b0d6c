import SerialChrono.MainSpec
import SerialChrono.Library.PartialRun

/-!
# When a stop or an intermediate time is accepted (`main_mgr.c`)

`main_mgr_int` and `main_mgr_stop` refuse a timestamp while "chrono is not running", which they
take from the sign of `start_time`.  A reset makes it negative and a start overwrites it; a stop
leaves it as it is.  So a second stop is accepted after the first, and a start with a negative
timestamp is accepted but does not let anything through.

`RunHistory` keeps the last command among `start`, `stop` and `reset` that main has accepted.
Main accepts marks exactly while that is a start, all along a run, if and only if every start of
the run has a timestamp that is not negative and no stop of it is accepted
(`marksWhileRunning_iff_along`).  `run_startTime` is the rule the code follows instead.
-/

namespace SerialChrono

open CText PartialRun

/-! ## Runs of the four commands -/

/-- The commands that begin, mark and end a run. -/
inductive RunCommand
  | start | int | stop | reset
  deriving DecidableEq, Repr

def RunCommand.command : RunCommand → Command
  | .start => .start
  | .int => .int
  | .stop => .stop
  | .reset => .reset

/-- A command of a run, with any source and any arguments. -/
structure RunInput where
  command : RunCommand
  source : CString
  args : Tokens
  deriving DecidableEq, Repr

def RunInput.tokens (i : RunInput) : Tokens := i.source :: i.command.command.cmd :: i.args

/-- The configuration, and the last command among `start`, `stop` and `reset` that was
accepted. -/
structure RunHistory where
  config : Configuration
  last : Option RunCommand
  deriving DecidableEq, Repr

def RunHistory.initial : RunHistory := ⟨defaultOptions, none⟩

/-- One command, handled by `main_mgr`. -/
def runHistoryStep (h : RunHistory) (i : RunInput) : Option RunHistory :=
  (mainMgrEntries i.command.command h.config i.tokens i.tokens.length).map fun r =>
    { config := r.2
      last := if (0 : ℤ) ≤ r.1 ∧ i.command ≠ .int then some i.command else h.last }

/-- The `main_mgr` handler of the command does not return an error. -/
def Accepts (config : Configuration) (c : Command) (tokens : Tokens) : Prop :=
  ∃ res config', mainMgrEntries c config tokens tokens.length = some (res, config') ∧ 0 ≤ res

/-- A stop or an intermediate time with a timestamp is accepted exactly if the last command
accepted is a start. -/
def RunHistory.MarksWhileRunning (h : RunHistory) : Prop :=
  ∀ c, c = .int ∨ c = .stop → ∀ (source timestamp : CString) (args : Tokens),
    Accepts h.config c (source :: c.cmd :: timestamp :: args) ↔ h.last = some .start

/-- The timestamp of a start with these arguments. -/
def startTimestamp (args : Tokens) : ℤ := (args.head?.map strtol).getD 0

/-- The start time a command leaves. -/
def RunInput.startTime (i : RunInput) (old : ℤ) : ℤ :=
  match i.command with
  | .start => startTimestamp i.args
  | .reset => -1
  | .int | .stop => old

/-- A start has a timestamp that is not negative, and a stop is refused. -/
def RunHistory.InStep (h : RunHistory) (i : RunInput) : Prop :=
  match i.command with
  | .start => 0 ≤ startTimestamp i.args
  | .stop => i.args ≠ [] → h.config.status.startTime < 0
  | .int | .reset => True

/-! ## One command -/

/-- Main looks at the sign of the start time only. -/
lemma accepts_mark_iff {c : Command} (hc : c = .int ∨ c = .stop) (config : Configuration)
    (source timestamp : CString) (args : Tokens) :
    Accepts config c (source :: c.cmd :: timestamp :: args) ↔ 0 ≤ config.status.startTime := by
  unfold Accepts
  rcases hc with rfl | rfl
  · simp only [mainMgrEntries, mainMgrInt]
    split_ifs with hneg
    · simp
      omega
    · simp_all
    · simp_all
  · simp only [mainMgrEntries, mainMgrStop]
    split_ifs with hneg
    · simp
      omega
    · simp_all
    · simp_all

lemma marksWhileRunning_iff (h : RunHistory) :
    h.MarksWhileRunning ↔ (0 ≤ h.config.status.startTime ↔ h.last = some .start) := by
  constructor
  · intro hmarks
    rw [← hmarks .stop (.inr rfl) [] [] []]
    exact (accepts_mark_iff (.inr rfl) h.config [] [] []).symm
  · intro hsign c hc source timestamp args
    rw [accepts_mark_iff hc, hsign]

/-- What the handler of a mark does: it refuses while the start time is negative or without a
timestamp, and it never changes the start time. -/
lemma mainMgrEntries_mark {c : Command} (hc : c = .int ∨ c = .stop) {config config' : Configuration}
    {source : CString} {args : Tokens} {res : ℤ}
    (h : mainMgrEntries c config (source :: c.cmd :: args) (source :: c.cmd :: args).length =
      some (res, config')) :
    config'.status.startTime = config.status.startTime ∧
      (0 ≤ res ↔ 0 ≤ config.status.startTime ∧ args ≠ []) := by
  obtain ⟨hres, hsame⟩ := mainMgrEntries_spec h
  have hlength : (source :: c.cmd :: args).length = 2 ↔ args = [] := by simp
  have hneg : res < 0 ↔ config.status.startTime < 0 ∨ args = [] := by
    rw [hres, hlength]
    rcases hc with rfl | rfl <;> simp
  refine ⟨?_, ?_⟩
  · by_cases hrefused : res < 0
    · rw [hsame hrefused]
    · rcases hc with rfl | rfl <;> simp only [mainMgrEntries, mainMgrInt, mainMgrStop] at h <;> grind
  · rw [← not_lt, hneg, not_or, not_lt]

/-- What a command does to the start time and to the last command accepted. -/
lemma runHistoryStep_spec {h t : RunHistory} {i : RunInput} (hstep : runHistoryStep h i = some t) :
    t.config.status.startTime = i.startTime h.config.status.startTime ∧
      t.last = match i.command with
        | .start => some .start
        | .reset => some .reset
        | .int => h.last
        | .stop => if 0 ≤ h.config.status.startTime ∧ i.args ≠ [] then some .stop else h.last := by
  obtain ⟨command, source, args⟩ := i
  obtain ⟨⟨res, config⟩, hentry, rfl⟩ := Option.map_eq_some_iff.mp hstep
  cases command with
  | start => cases args <;> cases hentry <;> exact ⟨rfl, rfl⟩
  | reset =>
    cases hentry
    exact ⟨rfl, rfl⟩
  | int => exact ⟨(mainMgrEntries_mark (.inl rfl) hentry).1, by simp⟩
  | stop =>
    obtain ⟨hstart, hres⟩ := mainMgrEntries_mark (.inr rfl) hentry
    refine ⟨hstart, ?_⟩
    simp [hres]

/-- A command keeps the agreement exactly if it is `InStep`. -/
lemma marks_step_iff {h t : RunHistory} {i : RunInput} (hmarks : h.MarksWhileRunning)
    (hstep : runHistoryStep h i = some t) : t.MarksWhileRunning ↔ h.InStep i := by
  obtain ⟨hstart, hlast⟩ := runHistoryStep_spec hstep
  rw [marksWhileRunning_iff] at hmarks ⊢
  rw [hstart, hlast]
  unfold RunHistory.InStep RunInput.startTime
  cases hcommand : i.command with
  | start => simp
  | reset => simp
  | int => exact iff_of_true hmarks trivial
  | stop =>
    by_cases haccepted : 0 ≤ h.config.status.startTime ∧ i.args ≠ []
    · -- the stop is accepted, and the start time stays
      simp [haccepted]
    · simp only [if_neg haccepted]
      refine iff_of_true hmarks fun hargs => ?_
      by_contra hneg
      exact haccepted ⟨not_lt.mp hneg, hargs⟩

/-! ## Runs -/

/-- **Marks and the running chronometer.** For every sequence of starts, intermediate times, stops
and resets with any arguments, from the initial state: in every state of the run main accepts
a stop or an intermediate time exactly if the last command it has accepted is a start, if and
only if no start of the run has a negative timestamp and each stop that has one comes while the
start time is negative, and so is refused. -/
theorem marksWhileRunning_iff_along (inputs : List RunInput) :
    Always runHistoryStep RunHistory.MarksWhileRunning .initial inputs ↔
      Along runHistoryStep RunHistory.InStep .initial inputs :=
  always_iff_along_of_step (fun _ _ _ hmarks hstep => marks_step_iff hmarks hstep)
    ((marksWhileRunning_iff _).mpr (by decide))

/-- `start 1000` and `stop 2000`: a second stop is accepted. -/
theorem stop_accepted_twice :
    ¬ ∀ inputs : List RunInput,
      Always runHistoryStep RunHistory.MarksWhileRunning .initial inputs := by
  intro h
  let inputs : List RunInput :=
    [⟨.start, "comm_server".toList, ["1000".toList]⟩,
      ⟨.stop, "comm_server".toList, ["2000".toList]⟩]
  obtain ⟨t, ht, hlast, hstart⟩ : ∃ t, run runHistoryStep .initial inputs = some t ∧
      t.last = some .stop ∧ t.config.status.startTime = 1000 := ⟨_, rfl, rfl, by decide⟩
  have hsign := (marksWhileRunning_iff t).mp ((h inputs).of_run ht)
  rw [hlast, hstart] at hsign
  exact absurd (hsign.mp (by decide)) (by decide)

lemma run_startTime {h t : RunHistory} {inputs : List RunInput}
    (hrun : run runHistoryStep h inputs = some t) :
    t.config.status.startTime =
      inputs.foldl (fun old i => i.startTime old) h.config.status.startTime := by
  induction inputs generalizing h with
  | nil =>
    cases hrun
    rfl
  | cons i is ih =>
    obtain ⟨u, hu, hrest⟩ := Option.bind_eq_some_iff.mp hrun
    rw [ih hrest, (runHistoryStep_spec hu).1, List.foldl_cons]

/-- **What main goes by.** Marks are accepted exactly if the last command among the starts and
resets of the run is a start whose timestamp is not negative. -/
theorem accepts_after_run {h : RunHistory} {inputs : List RunInput}
    (hrun : run runHistoryStep .initial inputs = some h) {c : Command} (hc : c = .int ∨ c = .stop)
    (source timestamp : CString) (args : Tokens) :
    Accepts h.config c (source :: c.cmd :: timestamp :: args) ↔
      0 ≤ inputs.foldl (fun old i => i.startTime old) (-1) := by
  rw [accepts_mark_iff hc, run_startTime hrun]
  rfl

end SerialChrono
