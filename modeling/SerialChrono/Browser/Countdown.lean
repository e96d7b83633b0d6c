import SerialChrono.Library.PartialRun
import Mathlib.Algebra.Order.Ring.Int
import Mathlib.Data.List.Range

/-!
# The countdowns of the page (`countdown.js`)

A `Countdown` counts tenths of seconds down by an interval of 50 milliseconds that takes half a
tenth off each time.  `live` is the browser's side of it: the intervals that have been set and not
cleared.

Whatever methods are called and whenever the interval fires, there is at most one interval, the one
`timer` names (`countdown_intervals`).  A countdown that is left alone shows every half tenth from
its start to zero once, calls `counterEnd` once and is then silent (`countdown_runsDown`).
-/

namespace SerialChrono

open PartialRun

/-- The variables of a countdown. -/
structure Countdown where
  paused : Bool
  timer : Option ℕ
  seconds : ℤ
  /-- `count`, in halves.  A double has all of them up to `2 ^ 53`. -/
  count : ℤ
  live : List ℕ
  /-- The name of the next interval. -/
  nextTimer : ℕ
  /-- What `updateStatus` has been called with. -/
  shown : List ℤ
  /-- The calls of `counterEnd`. -/
  ends : ℕ
  deriving DecidableEq, Repr

namespace Countdown

/-- Both countdowns of the page are made with 15 seconds: one is told so, the other one is given NaN,
because the input with its minutes is not there yet.  `initialize` resets them afterwards. -/
def initial : Countdown := ⟨false, none, 15, 0, [], 0, [], 0⟩

/-- `if (timer!==null) clearInterval(timer);` -/
def clear (c : Countdown) : Countdown :=
  match c.timer with
  | none => c
  | some timer => { c with live := c.live.filter (· ≠ timer) }

def start (c : Countdown) : Countdown :=
  let c := c.clear
  { c with
    paused := false
    count := c.seconds * 20
    timer := some c.nextTimer
    live := c.nextTimer :: c.live
    nextTimer := c.nextTimer + 1 }

def stop (c : Countdown) : Countdown :=
  let c := c.clear
  { c with paused := false, count := 0, shown := c.shown ++ [0] }

/-- `reset`, for the number that has been parsed, if it is one. -/
def reset (secs : Option ℤ) (c : Countdown) : Countdown :=
  match secs with
  | some s => if 0 < s then { c with seconds := s } else c
  | none => c

def val (secs : ℤ) (c : Countdown) : Countdown := { c with count := secs * 20 }

def pause (c : Countdown) : Countdown := if 0 < c.count then { c with paused := true } else c

def resume (c : Countdown) : Countdown := if 0 < c.count then { c with paused := false } else c

def started (c : Countdown) : Bool := 0 < c.count

def decrementCounter (c : Countdown) : Countdown :=
  if c.count ≤ 0 then { c with ends := c.ends + 1 }.stop
  else
    let c := { c with shown := c.shown ++ [c.count] }
    if c.paused then c else { c with count := c.count - 1 }

/-- An interval fires. -/
def tick (timer : ℕ) (c : Countdown) : Option Countdown :=
  if timer ∈ c.live then some c.decrementCounter else none

end Countdown

/-- A call of a method, or an interval that fires. -/
inductive CountdownInput
  | start
  | stop
  | reset (secs : Option ℤ)
  | val (secs : ℤ)
  | pause
  | resume
  | tick (timer : ℕ)
  deriving DecidableEq, Repr

def countdownStep (c : Countdown) : CountdownInput → Option Countdown
  | .start => some c.start
  | .stop => some c.stop
  | .reset secs => some (c.reset secs)
  | .val secs => some (c.val secs)
  | .pause => some c.pause
  | .resume => some c.resume
  | .tick timer => c.tick timer

namespace Countdown

/-! ## The intervals -/

/-- No interval but the one `timer` names. -/
structure OneInterval (c : Countdown) : Prop where
  live : c.live = [] ∨ ∃ timer, c.timer = some timer ∧ c.live = [timer]
  seconds : 0 < c.seconds

variable {c t : Countdown}

lemma OneInterval.live_clear (h : c.OneInterval) : c.clear.live = [] := by
  unfold clear
  rcases h.live with hnone | ⟨timer, htimer, hlive⟩
  · cases c.timer <;> simp [hnone]
  · simp [htimer, hlive]

@[simp] lemma seconds_clear (c : Countdown) : c.clear.seconds = c.seconds := by
  unfold clear
  cases c.timer <;> rfl

lemma OneInterval.start (h : c.OneInterval) : c.start.OneInterval where
  live := .inr ⟨c.clear.nextTimer, rfl, congrArg (List.cons c.clear.nextTimer) h.live_clear⟩
  seconds := by simpa [Countdown.start] using h.seconds

lemma OneInterval.stop (h : c.OneInterval) : c.stop.OneInterval where
  live := .inl h.live_clear
  seconds := by simpa [Countdown.stop] using h.seconds

lemma OneInterval.decrementCounter (h : c.OneInterval) : c.decrementCounter.OneInterval := by
  unfold Countdown.decrementCounter
  dsimp only
  split_ifs
  · exact OneInterval.stop ⟨h.live, h.seconds⟩
  · exact ⟨h.live, h.seconds⟩
  · exact ⟨h.live, h.seconds⟩

lemma OneInterval.step (h : c.OneInterval) {i : CountdownInput}
    (hstep : countdownStep c i = some t) : t.OneInterval := by
  cases i with
  | start =>
    cases hstep
    exact h.start
  | stop =>
    cases hstep
    exact h.stop
  | reset secs =>
    cases hstep
    unfold Countdown.reset
    split
    · split_ifs with hpos
      · exact ⟨h.live, hpos⟩
      · exact h
    · exact h
  | val secs =>
    cases hstep
    exact ⟨h.live, h.seconds⟩
  | pause =>
    cases hstep
    unfold Countdown.pause
    split_ifs
    · exact ⟨h.live, h.seconds⟩
    · exact h
  | resume =>
    cases hstep
    unfold Countdown.resume
    split_ifs
    · exact ⟨h.live, h.seconds⟩
    · exact h
  | tick timer =>
    have htick : c.tick timer = some t := hstep
    unfold Countdown.tick at htick
    split_ifs at htick
    cases htick
    exact h.decrementCounter

lemma oneInterval_initial : initial.OneInterval := ⟨.inl rfl, by decide⟩

lemma oneInterval_run {inputs : List CountdownInput}
    (h : run countdownStep .initial inputs = some c) : c.OneInterval :=
  (always_of_along (C := fun _ _ => True) (fun _ _ _ hs _ hstep => hs.step hstep)
    oneInterval_initial (along_of_forall (fun _ _ => trivial) _)).of_run h

/-- The intervals of a countdown do not pile up: in every run of calls and of intervals that fire
there is at most one, and `timer` names it. -/
theorem countdown_intervals (inputs : List CountdownInput) :
    Always countdownStep (fun c => c.live = [] ∨ ∃ timer, c.timer = some timer ∧ c.live = [timer])
      .initial inputs :=
  always_iff_run.mpr fun _ _ _ hrun => (oneInterval_run hrun).live

/-! ## A countdown that is left alone -/

/-- The state of a countdown after `n` ticks. -/
structure Counting (begun c : Countdown) (interval n : ℕ) : Prop where
  running : c.paused = false
  timer : c.timer = some interval
  live : c.live = [interval]
  count : c.count = begun.seconds * 20 - n
  shown : c.shown = begun.shown ++ (List.range n).map fun k : ℕ => begun.seconds * 20 - k
  ends : c.ends = begun.ends

lemma OneInterval.counting_start (h : c.OneInterval) :
    ∃ timer, Counting c c.start timer 0 := by
  refine ⟨c.clear.nextTimer, rfl, rfl, congrArg (List.cons _) h.live_clear, ?_, ?_, ?_⟩
  · simp [Countdown.start]
  · unfold Countdown.start clear
    cases c.timer <;> simp
  · unfold Countdown.start clear
    cases c.timer <;> rfl

/-- A tick before the end. -/
lemma Counting.tick {timer n : ℕ} (h : Counting c t timer n) (hn : (n : ℤ) < c.seconds * 20) :
    ∃ t', countdownStep t (.tick timer) = some t' ∧ Counting c t' timer (n + 1) := by
  have hcount : ¬ t.count ≤ 0 := by
    rw [h.count]
    omega
  have hmem : timer ∈ t.live := by simp [h.live]
  have hstep : t.decrementCounter =
      { t with shown := t.shown ++ [t.count], count := t.count - 1 } := by
    unfold decrementCounter
    simp [hcount, h.running]
  refine ⟨t.decrementCounter, by rw [countdownStep, Countdown.tick, if_pos hmem], ?_⟩
  rw [hstep]
  refine ⟨h.running, h.timer, h.live, ?_, ?_, h.ends⟩
  · dsimp only
    rw [h.count]
    push_cast
    omega
  · dsimp only
    rw [h.shown, h.count, List.range_succ, List.map_append, List.append_assoc]
    rfl

lemma Counting.ticks {timer n : ℕ} (h : Counting c t timer n) (m : ℕ)
    (hm : ((n + m : ℕ) : ℤ) ≤ c.seconds * 20) :
    ∃ t', run countdownStep t (List.replicate m (.tick timer)) = some t' ∧
      Counting c t' timer (n + m) := by
  induction m generalizing n t with
  | zero => exact ⟨t, rfl, h⟩
  | succ m ih =>
    obtain ⟨t₁, hstep, hcounting⟩ := h.tick (by push_cast at hm; omega)
    obtain ⟨t₂, hrun, hcounting⟩ := ih hcounting (by push_cast at hm ⊢; omega)
    refine ⟨t₂, ?_, by rwa [Nat.add_assoc, Nat.add_comm 1] at hcounting⟩
    rw [List.replicate_succ, run_cons, hstep]
    exact hrun

/-- The tick that finds nothing left. -/
lemma Counting.last {timer n : ℕ} (h : Counting c t timer n) (hn : (n : ℤ) = c.seconds * 20) :
    ∃ t', countdownStep t (.tick timer) = some t' ∧ t'.live = [] ∧ t'.started = false ∧
      t'.ends = c.ends + 1 ∧
      t'.shown = c.shown ++ (List.range n).map (fun k : ℕ => c.seconds * 20 - k) ++ [0] := by
  have hcount : t.count ≤ 0 := by
    rw [h.count]
    omega
  have hmem : timer ∈ t.live := by simp [h.live]
  refine ⟨t.decrementCounter, by rw [countdownStep, Countdown.tick, if_pos hmem], ?_⟩
  unfold decrementCounter
  rw [if_pos hcount]
  simp [Countdown.stop, clear, h.timer, h.live, h.ends, h.shown, started]

/-- Started and left alone, the countdown of `s` seconds is over at its tick `20 * s + 1` and not
before: by then it has shown each half tenth once, in their order, and zero, has called
`counterEnd` once, and it will not tick again. -/
def RunsDown (c : Countdown) : Prop :=
  ∃ (s interval : ℕ) (t u : Countdown), c.seconds = s ∧ 0 < s ∧
    (∀ m ≤ 20 * s, ∃ v, run countdownStep c.start (List.replicate m (.tick interval)) = some v ∧
      v.live = [interval] ∧ v.ends = c.ends) ∧
    run countdownStep c.start (List.replicate (20 * s) (.tick interval)) = some t ∧
    countdownStep t (.tick interval) = some u ∧ u.live = [] ∧ u.started = false ∧
    u.ends = c.ends + 1 ∧
    u.shown = c.shown ++ (List.range (20 * s)).map (fun k => ((20 * s - k : ℕ) : ℤ)) ++ [0]

lemma OneInterval.runsDown (h : c.OneInterval) : c.RunsDown := by
  obtain ⟨s, hs⟩ := Int.eq_ofNat_of_zero_le h.seconds.le
  obtain ⟨interval, hstart⟩ := h.counting_start
  obtain ⟨t, hrun, hcounting⟩ := hstart.ticks (20 * s) (by push_cast; omega)
  rw [Nat.zero_add] at hcounting
  obtain ⟨u, hlast, hlive, hstarted, hends, hshown⟩ := hcounting.last (by push_cast; omega)
  have hpos := h.seconds
  refine ⟨s, interval, t, u, hs, by omega, fun m hm => ?_, hrun, hlast, hlive, hstarted, hends, ?_⟩
  · obtain ⟨v, hv, hcounting⟩ := hstart.ticks m (by push_cast; omega)
    exact ⟨v, hv, hcounting.live, hcounting.ends⟩
  · rw [hshown]
    congr 2
    refine List.map_congr_left fun k hk => ?_
    have hlt := List.mem_range.mp hk
    push_cast [Nat.cast_sub hlt.le]
    omega

/-- Whatever has been called before, a countdown that is started and left alone runs down.  Of the
page this holds up to `2 ^ 53 / 20` seconds; far above, half a tenth is rounded away and the count
stays where it is. -/
theorem countdown_runsDown (inputs : List CountdownInput) :
    Always countdownStep RunsDown .initial inputs :=
  always_iff_run.mpr fun _ _ _ hrun => (oneInterval_run hrun).runsDown

end Countdown

end SerialChrono
