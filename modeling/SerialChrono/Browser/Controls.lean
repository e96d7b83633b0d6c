import SerialChrono.Browser.Chrono
import SerialChrono.Browser.Countdown

/-!
# The buttons and the clocks of the page (`crono.js`)

The page has three clocks, the chronometer and the two countdowns, and one place to show them.  Its
functions are called by the buttons, which `handle_buttons` enables and disables, and for the
commands that `readData` brings.  `Controls` is the page with its buttons, and `controlsStep` one call
or one timer.

The buttons alone keep the clocks apart: `controls_exclusive` says that at most one is counting in
every run in which a countdown is not ordered from elsewhere while the chronometer is started, and
no timer of an intermediate time is left over when its run has ended.  Without any condition the
two countdowns exclude each other (`countdowns_exclusive`).
-/

namespace SerialChrono

open JsNumber PartialRun

/-! ## The buttons -/

/-- The buttons that are enabled.  The one for a reset always is. -/
structure Buttons where
  start : Bool
  int : Bool
  stop : Bool
  /-- `SalidaBtn` -/
  down : Bool
  /-- `ReconocimientoBtn` -/
  walk : Bool
  deriving DecidableEq, Repr

/-- The buttons of a page that has just been loaded. -/
def Buttons.initial : Buttons := ⟨true, true, true, true, true⟩

inductive ButtonCase
  | reset | start | int | stop | down | walk
  deriving DecidableEq, Repr

/-- `handle_buttons` -/
def handleButtons : ButtonCase → Buttons
  | .reset | .stop => { start := true, int := false, stop := false, down := true, walk := true }
  | .start | .int => { start := false, int := true, stop := true, down := false, walk := false }
  | .down => { start := true, int := false, stop := false, down := true, walk := false }
  | .walk => { start := false, int := false, stop := false, down := false, walk := true }

/-! ## The page -/

/-- What the page sends with `writeData`.  `none` is NaN. -/
inductive PageWrite
  | timed (w : Written)
  | walk (seconds : Option ℤ)
  | down (seconds : Option ℤ)
  deriving DecidableEq, Repr

structure Controls where
  page : CronoPage
  /-- `c_llamada` -/
  llamada : Countdown
  /-- `c_reconocimiento` -/
  reconocimiento : Countdown
  buttons : Buttons
  deriving DecidableEq, Repr

namespace Controls

/-- `initialize` of the page gives the countdowns their seconds. -/
def initial (now : ℤ) : Controls where
  page := .initial now
  llamada := Countdown.initial.reset (some 15)
  reconocimiento := Countdown.initial.reset (some 420)
  buttons := .initial

/-- The chronometer's part of a function and the buttons, with the countdowns stopped. -/
def cReset (now : ℤ) (isLocal : Bool) (s : Controls) : Controls × Option PageWrite :=
  let (page, written) := s.page.cReset now isLocal
  ({ page
     llamada := s.llamada.stop
     reconocimiento := s.reconocimiento.stop
     buttons := handleButtons .reset }, written.map .timed)

def startRun (now val : ℤ) (isLocal : Bool) (s : Controls) : Controls × Option PageWrite :=
  let (page, written) := s.page.startRun now val isLocal
  ({ page
     llamada := s.llamada.stop
     reconocimiento := s.reconocimiento.stop
     buttons := handleButtons .start }, written.map .timed)

def intRun (now val : ℤ) (isLocal : Bool) (s : Controls) : Controls × Option PageWrite :=
  let (page, written) := s.page.intRun now val isLocal
  ({ s with page, buttons := handleButtons .int }, written.map .timed)

def stopRun (now val : ℤ) (isLocal : Bool) (s : Controls) : Controls × Option PageWrite :=
  let (page, written) := s.page.stopRun now val isLocal
  ({ s with page, buttons := handleButtons .stop }, written.map .timed)

/-- `if (c.started()) c.stop();` -/
def stopIfStarted (c : Countdown) : Countdown := if c.started then c.stop else c

/-- `c.reset(seconds); if (seconds!==0) c.start();` -/
def startFrom (seconds : Option ℤ) (c : Countdown) : Countdown :=
  let c := c.reset seconds
  if seconds ≠ some 0 then c.start else c

/-- `reconocimiento`; `walkTime` is the number in the input of the minutes. -/
def reconocimientoRun (walkTime seconds : Option ℤ) (isLocal : Bool) (s : Controls) :
    Controls × Option PageWrite :=
  let seconds := if isLocal then walkTime.map (60 * ·) else seconds
  ({ s with
     llamada := stopIfStarted s.llamada
     reconocimiento := startFrom seconds (stopIfStarted s.reconocimiento)
     buttons := handleButtons .walk }, if isLocal then some (.walk seconds) else none)

/-- `llamada` -/
def llamadaRun (seconds : Option ℤ) (isLocal : Bool) (s : Controls) :
    Controls × Option PageWrite :=
  let seconds := if isLocal then some 15 else seconds
  ({ s with
     llamada := startFrom seconds (stopIfStarted s.llamada)
     reconocimiento := stopIfStarted s.reconocimiento
     buttons := handleButtons .down }, if isLocal then some (.down seconds) else none)

end Controls

/-! ## What happens on the page -/

/-- A call of a function of the page: by a button, or for a command from elsewhere. -/
inductive ControlInput
  | reset (now : ℤ) (isLocal : Bool)
  | start (now val : ℤ) (isLocal : Bool)
  | int (now val : ℤ) (isLocal : Bool)
  | stop (now val : ℤ) (isLocal : Bool)
  | walk (walkTime seconds : Option ℤ) (isLocal : Bool)
  | down (seconds : Option ℤ) (isLocal : Bool)
  /-- The timer of an `int_run` fires. -/
  | resume (now : ℤ)
  /-- The timer of `run_chrono` fires. -/
  | tick (now : ℤ)
  /-- An interval of a countdown fires. -/
  | tickLlamada (interval : ℕ)
  | tickReconocimiento (interval : ℕ)
  deriving DecidableEq, Repr

/-- The call is for a command, or its button is enabled. -/
def Controls.allows (s : Controls) : ControlInput → Bool
  | .start _ _ true => s.buttons.start
  | .int _ _ true => s.buttons.int
  | .stop _ _ true => s.buttons.stop
  | .walk _ _ true => s.buttons.walk
  | .down _ true => s.buttons.down
  | _ => true

/-- One call or one timer; a disabled button does nothing. -/
def controlsStep (s : Controls) (i : ControlInput) : Option Controls :=
  if s.allows i then
    match i with
    | .reset now isLocal => some (s.cReset now isLocal).1
    | .start now val isLocal => some (s.startRun now val isLocal).1
    | .int now val isLocal => some (s.intRun now val isLocal).1
    | .stop now val isLocal => some (s.stopRun now val isLocal).1
    | .walk walkTime seconds isLocal => some (s.reconocimientoRun walkTime seconds isLocal).1
    | .down seconds isLocal => some (s.llamadaRun seconds isLocal).1
    | .resume now => (s.page.resume now).map fun page => { s with page }
    | .tick now => (s.page.tick now).map fun page => { s with page }
    | .tickLlamada interval => (s.llamada.tick interval).map fun llamada => { s with llamada }
    | .tickReconocimiento interval =>
      (s.reconocimiento.tick interval).map fun reconocimiento => { s with reconocimiento }
  else some s

/-! ## The countdowns -/

namespace Countdown

variable {c t : Countdown}

/-- A tick does not start a countdown. -/
lemma not_started_of_tick {interval : ℕ} (h : c.tick interval = some t) (hc : c.started = false) :
    t.started = false := by
  unfold tick at h
  split_ifs at h
  cases h
  have hcount : c.count ≤ 0 := by simpa [started] using hc
  rw [decrementCounter, if_pos hcount]
  rfl

end Countdown

namespace Controls

variable {s t : Controls}

@[simp] lemma started_stopIfStarted (c : Countdown) : (stopIfStarted c).started = false := by
  unfold stopIfStarted
  split_ifs with h
  · rfl
  · simpa using h

/-- At most one of the countdowns counts. -/
def OneCountdown (s : Controls) : Prop :=
  s.llamada.started = false ∨ s.reconocimiento.started = false

lemma OneCountdown.step (h : s.OneCountdown) {i : ControlInput}
    (hstep : controlsStep s i = some t) : t.OneCountdown := by
  unfold controlsStep at hstep
  split_ifs at hstep
  · cases i with
    | reset now isLocal =>
      cases hstep
      exact .inl rfl
    | start now val isLocal =>
      cases hstep
      exact .inl rfl
    | int now val isLocal =>
      cases hstep
      exact h
    | stop now val isLocal =>
      cases hstep
      exact h
    | walk walkTime seconds isLocal =>
      cases hstep
      exact .inl (started_stopIfStarted _)
    | down seconds isLocal =>
      cases hstep
      exact .inr (started_stopIfStarted _)
    | resume now =>
      obtain ⟨page, -, rfl⟩ := Option.map_eq_some_iff.mp hstep
      exact h
    | tick now =>
      obtain ⟨page, -, rfl⟩ := Option.map_eq_some_iff.mp hstep
      exact h
    | tickLlamada interval =>
      obtain ⟨llamada, htick, rfl⟩ := Option.map_eq_some_iff.mp hstep
      exact h.imp_left (Countdown.not_started_of_tick htick)
    | tickReconocimiento interval =>
      obtain ⟨reconocimiento, htick, rfl⟩ := Option.map_eq_some_iff.mp hstep
      exact h.imp_right (Countdown.not_started_of_tick htick)
  · cases hstep
    exact h

/-! ## The three clocks -/

/-- At most one of the three clocks counts. -/
def Exclusive (s : Controls) : Prop :=
  s.OneCountdown ∧
    (s.page.chrono.started = true → s.llamada.started = false ∧ s.reconocimiento.started = false)

/-- A countdown is not ordered from elsewhere while the chronometer is started, and the timer of an
intermediate time fires before its run has ended; it may find the chronometer running again, when
there were two of them within five seconds. -/
def Orderly (s : Controls) : ControlInput → Prop
  | .walk _ _ false | .down _ false => s.page.chrono.started = false
  | .resume _ => s.page.chrono.started = true
  | _ => True

instance (s : Controls) : (i : ControlInput) → Decidable (s.Orderly i)
  | .walk _ _ false | .down _ false =>
    inferInstanceAs (Decidable (s.page.chrono.started = false))
  | .resume _ => inferInstanceAs (Decidable (s.page.chrono.started = true))
  | .reset _ _ | .start _ _ _ | .int _ _ _ | .stop _ _ _ | .walk _ _ true | .down _ true | .tick _
  | .tickLlamada _ | .tickReconocimiento _ => inferInstanceAs (Decidable True)

/-- While the chronometer is started no countdown counts, and the buttons are those of a run. -/
structure Separate (s : Controls) : Prop where
  countdowns : s.page.chrono.started = true →
    s.llamada.started = false ∧ s.reconocimiento.started = false
  buttons : s.page.chrono.started = true → s.buttons = handleButtons .start

/-- The chronometer is not started. -/
lemma separate_of_not_started (h : s.page.chrono.started = false) : s.Separate :=
  ⟨fun hs => absurd (h ▸ hs) Bool.false_ne_true, fun hs => absurd (h ▸ hs) Bool.false_ne_true⟩

/-- The buttons of the countdowns are disabled during a run. -/
lemma Separate.not_started (h : s.Separate) {i : ControlInput} (hallows : s.allows i = true)
    (horderly : s.Orderly i) (hcountdown : (∃ walkTime seconds isLocal,
      i = .walk walkTime seconds isLocal) ∨ ∃ seconds isLocal, i = .down seconds isLocal) :
    s.page.chrono.started = false := by
  by_contra hstarted
  rw [Bool.not_eq_false] at hstarted
  have hbuttons := h.buttons hstarted
  rcases hcountdown with ⟨walkTime, seconds, isLocal, rfl⟩ | ⟨seconds, isLocal, rfl⟩
  · cases isLocal with
    | false => exact absurd (hstarted.symm.trans horderly) (by decide)
    | true =>
      rw [allows, hbuttons] at hallows
      cases hallows
  · cases isLocal with
    | false => exact absurd (hstarted.symm.trans horderly) (by decide)
    | true =>
      rw [allows, hbuttons] at hallows
      cases hallows

lemma Separate.step (h : s.Separate) {i : ControlInput} (horderly : s.Orderly i)
    (hstep : controlsStep s i = some t) : t.Separate := by
  unfold controlsStep at hstep
  split_ifs at hstep with hallows
  · cases i with
    | reset now isLocal =>
      cases hstep
      exact separate_of_not_started (CronoPage.started_cReset now isLocal s.page)
    | start now val isLocal =>
      cases hstep
      exact ⟨fun _ => ⟨rfl, rfl⟩, fun _ => rfl⟩
    | int now val isLocal =>
      cases hstep
      have hstarted := CronoPage.started_intRun now val isLocal s.page
      exact ⟨fun hs => h.countdowns (hstarted.symm.trans hs), fun _ => rfl⟩
    | stop now val isLocal =>
      cases hstep
      exact separate_of_not_started (CronoPage.started_stopRun now val isLocal s.page)
    | walk walkTime seconds isLocal =>
      cases hstep
      exact separate_of_not_started (h.not_started hallows horderly (.inl ⟨_, _, _, rfl⟩))
    | down seconds isLocal =>
      cases hstep
      exact separate_of_not_started (h.not_started hallows horderly (.inr ⟨_, _, rfl⟩))
    | resume now =>
      obtain ⟨page, -, rfl⟩ := Option.map_eq_some_iff.mp hstep
      have hstarted : s.page.chrono.started = true := horderly
      exact ⟨fun _ => h.countdowns hstarted, fun _ => h.buttons hstarted⟩
    | tick now =>
      obtain ⟨page, htick, rfl⟩ := Option.map_eq_some_iff.mp hstep
      have hstarted := (CronoPage.started_tick htick).2
      exact ⟨fun hs => h.countdowns (hstarted.symm.trans hs),
        fun hs => h.buttons (hstarted.symm.trans hs)⟩
    | tickLlamada interval =>
      obtain ⟨llamada, htick, rfl⟩ := Option.map_eq_some_iff.mp hstep
      refine ⟨fun hs => ⟨?_, (h.countdowns hs).2⟩, h.buttons⟩
      exact Countdown.not_started_of_tick htick (h.countdowns hs).1
    | tickReconocimiento interval =>
      obtain ⟨reconocimiento, htick, rfl⟩ := Option.map_eq_some_iff.mp hstep
      refine ⟨fun hs => ⟨(h.countdowns hs).1, ?_⟩, h.buttons⟩
      exact Countdown.not_started_of_tick htick (h.countdowns hs).2
  · cases hstep
    exact h

lemma oneCountdown_initial (now : ℤ) : (initial now).OneCountdown := .inl rfl

lemma started_initial (now : ℤ) : (initial now).page.chrono.started = false := rfl

end Controls

/-- The two countdowns exclude each other, whatever comes from the buttons and from elsewhere. -/
theorem countdowns_exclusive (now : ℤ) (inputs : List ControlInput) :
    Always controlsStep (fun s => ¬ (s.llamada.started = true ∧ s.reconocimiento.started = true))
      (.initial now) inputs := by
  have hone : Always controlsStep Controls.OneCountdown (.initial now) inputs :=
    always_of_along (C := fun _ _ => True) (fun _ _ _ hs _ hstep => hs.step hstep)
      (Controls.oneCountdown_initial now) (along_of_forall (fun _ _ => trivial) _)
  refine always_iff_run.mpr fun pre t hpre hrun => ?_
  rintro ⟨hllamada, hreconocimiento⟩
  rcases always_iff_run.mp hone pre t hpre hrun with h | h
  · rw [hllamada] at h
    cases h
  · rw [hreconocimiento] at h
    cases h

/-- Only one clock counts at a time, in every run in which no countdown is ordered from elsewhere
while the chronometer is started and each intermediate time is over before its run ends.  The
buttons need no condition: what is not in order is disabled. -/
theorem controls_exclusive {now : ℤ} {inputs : List ControlInput}
    (h : Along controlsStep Controls.Orderly (.initial now) inputs) :
    Always controlsStep Controls.Exclusive (.initial now) inputs := by
  have hboth : Always controlsStep (fun s => s.OneCountdown ∧ s.Separate) (.initial now) inputs :=
    always_of_along (fun _ _ _ hs hC hstep => ⟨hs.1.step hstep, hs.2.step hC hstep⟩)
      ⟨Controls.oneCountdown_initial now,
        Controls.separate_of_not_started (Controls.started_initial now)⟩ h
  exact always_iff_run.mpr fun pre t hpre hrun =>
    ⟨(always_iff_run.mp hboth pre t hpre hrun).1,
      (always_iff_run.mp hboth pre t hpre hrun).2.countdowns⟩

theorem controls_exclusive_walk :
    Always controlsStep Controls.Exclusive (.initial 0)
      [.walk (some 7) none true, .start 1000 0 true, .walk (some 7) none true,
        .int 2000 0 true, .int 3000 0 true, .resume 7000, .resume 8000, .stop 9000 0 true,
        .down none true] :=
  controls_exclusive (by decide)

end SerialChrono
