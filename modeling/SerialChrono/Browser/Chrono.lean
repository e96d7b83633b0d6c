import SerialChrono.Library.JsNumber

/-!
# The chronometer on the page (`jquery-chronometer.js`, `crono.js`)

`Chrono` holds the variables of the plugin and `CronoPage` those of the page around it.  Every
function takes `now`, the value of `Date.now()` when it runs.  The timers they set are counted:
`ticks` for the calls of `run_chrono` that wait for their interval, and `resumes` for the ones of
`int_run` that wait five seconds to let the chronometer run on.

The callbacks `onBefore...` all return true here, so the tests on them are left out, and so is
what is shown: the display, the buttons and the two countdowns.
-/

namespace SerialChrono

open CText JsNumber

/-! ## `jquery-chronometer.js` -/

/-- The variables of the plugin. -/
structure Chrono where
  running : Bool
  paused : Bool
  startTime : ℤ
  /-- The time on the page's own clock at `startTime`. -/
  localTime : ℤ
  stopTime : ℤ
  pauseTime : ℤ
  /-- The calls of `run_chrono` that wait. -/
  ticks : ℕ
  deriving DecidableEq, Repr

namespace Chrono

/-- A page that has just been loaded. -/
def initial : Chrono := ⟨false, false, 0, 0, 0, 0, 0⟩

/-- A mark that is still zero is set to the time. -/
def orNow (now mark : ℤ) : ℤ := if mark = 0 then now else mark

/-- `run_chrono`, without what it shows. -/
def runChrono (now : ℤ) (c : Chrono) : Chrono :=
  let c := { c with
    startTime := orNow now c.startTime
    localTime := orNow now c.localTime
    stopTime := orNow now c.stopTime
    pauseTime := orNow now c.pauseTime }
  if c.paused then c
  else if c.running then { c with ticks := c.ticks + 1 }
  else c

def start (now : ℤ) (timestamp : Option ℤ) (c : Chrono) : Chrono :=
  let startTime := timestamp.getD now
  runChrono now { c with
    localTime := now, startTime, stopTime := startTime, pauseTime := startTime
    running := true, paused := false }

def stop (now : ℤ) (timestamp : Option ℤ) (c : Chrono) : Chrono :=
  { c with stopTime := timestamp.getD now, running := false, paused := false }

def pause (now : ℤ) (timestamp : Option ℤ) (c : Chrono) : Chrono :=
  { c with pauseTime := timestamp.getD now, running := false, paused := true }

def resume (now : ℤ) (c : Chrono) : Chrono :=
  runChrono now { c with running := true, paused := false }

def reset (c : Chrono) : Chrono := { c with startTime := 0, stopTime := 0, localTime := 0 }

def started (c : Chrono) : Bool := c.running || c.paused

/-- The timer of `run_chrono`. -/
def tick (now : ℤ) (c : Chrono) : Option Chrono :=
  if 0 < c.ticks then some (runChrono now { c with ticks := c.ticks - 1 }) else none

section

variable (now : ℤ) (timestamp : Option ℤ) (c : Chrono)

@[simp] lemma running_runChrono : (runChrono now c).running = c.running := by
  dsimp only [runChrono]
  split_ifs <;> rfl

@[simp] lemma paused_runChrono : (runChrono now c).paused = c.paused := by
  dsimp only [runChrono]
  split_ifs <;> rfl

@[simp] lemma startTime_runChrono : (runChrono now c).startTime = orNow now c.startTime := by
  dsimp only [runChrono]
  split_ifs <;> rfl

@[simp] lemma stopTime_runChrono : (runChrono now c).stopTime = orNow now c.stopTime := by
  dsimp only [runChrono]
  split_ifs <;> rfl

@[simp] lemma pauseTime_runChrono : (runChrono now c).pauseTime = orNow now c.pauseTime := by
  dsimp only [runChrono]
  split_ifs <;> rfl

@[simp] lemma running_start : (c.start now timestamp).running = true := running_runChrono _ _

@[simp] lemma running_resume : (c.resume now).running = true := running_runChrono _ _

lemma orNow_of_ne {mark : ℤ} (h : mark ≠ 0) : orNow now mark = mark := if_neg h

end

end Chrono

/-! ## `crono.js` -/

/-- The variables of the page. -/
structure CronoPage where
  chrono : Chrono
  local_ts : ℤ
  remote_ts : ℤ
  alive_timestamp : ℤ
  /-- The timers of `int_run` that wait. -/
  resumes : ℕ
  deriving DecidableEq, Repr

/-- What a function of the page sends to the program with `writeData`. -/
inductive Written
  | reset
  | start (ts : ℤ)
  | int (ts : ℤ)
  | stop (ts : ℤ)
  deriving DecidableEq, Repr

namespace CronoPage

/-- `initialize`, when the page has been loaded. -/
def initial (now : ℤ) : CronoPage where
  chrono := (Chrono.initial.stop now none).reset
  local_ts := 0
  remote_ts := 0
  alive_timestamp := now
  resumes := 0

/-- `crono.Chrono('stop',...)`, which three functions call only if it is started. -/
def stopIfStarted (now : ℤ) (timestamp : Option ℤ) (c : Chrono) : Chrono :=
  if c.started then c.stop now timestamp else c

/-- `c_reset` -/
def cReset (now : ℤ) (isLocal : Bool) (p : CronoPage) : CronoPage × Option Written :=
  ({ p with chrono := (stopIfStarted now none p.chrono).reset },
    if isLocal then some .reset else none)

/-- `start_run` -/
def startRun (now val : ℤ) (isLocal : Bool) (p : CronoPage) : CronoPage × Option Written :=
  let local_ts := sub now p.alive_timestamp
  let remote_ts := if isLocal then local_ts else val
  let start_ts := remote_ts
  let chrono := (stopIfStarted now (some start_ts) p.chrono).reset
  ({ p with local_ts, remote_ts, chrono := chrono.start now (some (add start_ts 1)) },
    if isLocal then some (.start start_ts) else none)

/-- The timestamp of an intermediate time or a stop: a local one counts from the last start. -/
def markTimestamp (now val : ℤ) (isLocal : Bool) (p : CronoPage) : ℤ :=
  let local_mark := sub now p.alive_timestamp
  if isLocal then
    if p.local_ts = p.remote_ts then local_mark
    else sub (add p.remote_ts local_mark) p.local_ts
  else val

/-- `int_run` -/
def intRun (now val : ℤ) (isLocal : Bool) (p : CronoPage) : CronoPage × Option Written :=
  let int_ts := p.markTimestamp now val isLocal
  (if p.chrono.started then
      { p with chrono := p.chrono.pause now (some (add int_ts 1)), resumes := p.resumes + 1 }
    else p,
    if isLocal then some (.int int_ts) else none)

/-- `stop_run` -/
def stopRun (now val : ℤ) (isLocal : Bool) (p : CronoPage) : CronoPage × Option Written :=
  let end_ts := p.markTimestamp now val isLocal
  ({ p with chrono := stopIfStarted now (some (add end_ts 1)) p.chrono },
    if isLocal then some (.stop end_ts) else none)

/-- The timer of `int_run`. -/
def resume (now : ℤ) (p : CronoPage) : Option CronoPage :=
  if 0 < p.resumes then
    some { p with chrono := p.chrono.resume now, resumes := p.resumes - 1 }
  else none

/-- The timer of `run_chrono`. -/
def tick (now : ℤ) (p : CronoPage) : Option CronoPage :=
  (p.chrono.tick now).map fun chrono => { p with chrono }

/-! ## Whether it is started -/

lemma started_stopIfStarted (now : ℤ) (timestamp : Option ℤ) (c : Chrono) :
    (stopIfStarted now timestamp c).started = false := by
  unfold stopIfStarted
  split
  · rfl
  · next h => exact Bool.eq_false_iff.mpr h

lemma started_cReset (now : ℤ) (isLocal : Bool) (p : CronoPage) :
    (p.cReset now isLocal).1.chrono.started = false :=
  started_stopIfStarted now none p.chrono

lemma started_stopRun (now val : ℤ) (isLocal : Bool) (p : CronoPage) :
    (p.stopRun now val isLocal).1.chrono.started = false :=
  started_stopIfStarted now _ p.chrono

/-- An intermediate time leaves the chronometer started if it was. -/
lemma started_intRun (now val : ℤ) (isLocal : Bool) (p : CronoPage) :
    (p.intRun now val isLocal).1.chrono.started = p.chrono.started := by
  unfold intRun
  cases h : p.chrono.started
  · simp [h]
  · simp [Chrono.started, Chrono.pause]

lemma started_resume {now : ℤ} {p t : CronoPage} (h : p.resume now = some t) :
    t.chrono.running = true := by
  unfold resume at h
  split_ifs at h
  cases h
  exact Chrono.running_resume now p.chrono

lemma started_tick {now : ℤ} {p t : CronoPage} (h : p.tick now = some t) :
    t.chrono.running = p.chrono.running ∧ t.chrono.started = p.chrono.started := by
  obtain ⟨c, hc, rfl⟩ := Option.map_eq_some_iff.mp h
  unfold Chrono.tick at hc
  split_ifs at hc
  cases hc
  simp [Chrono.started]

end CronoPage

end SerialChrono
