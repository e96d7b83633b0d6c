import SerialChrono.Browser.Chrono
import SerialChrono.Library.PartialRun

/-!
# A chronometer that was stopped (`crono.js`)

`int_run` shows the intermediate time for five seconds and then lets the chronometer run on, by
a timer that `stop_run` and `c_reset` leave waiting.  A stop or a reset during these five seconds
is undone by the timer: the chronometer runs again, with nobody to stop it.

`PageHistory` keeps the last call among `start_run`, `stop_run` and `c_reset`.
`staysStopped_iff_along` says which interleavings of the calls and the timers are safe: those
where such a timer fires only after a `start_run`.
-/

namespace SerialChrono

open JsNumber PartialRun

/-- The functions that begin, end and clear a run. -/
inductive PageCall
  | startRun | stopRun | cReset
  deriving DecidableEq, Repr

/-- What happens on the page; `now` is the time and `val` the timestamp of a remote command. -/
inductive PageInput
  | startRun (now val : ℤ) (isLocal : Bool)
  | intRun (now val : ℤ) (isLocal : Bool)
  | stopRun (now val : ℤ) (isLocal : Bool)
  | cReset (now : ℤ) (isLocal : Bool)
  /-- The timer of an `int_run` fires. -/
  | resume (now : ℤ)
  /-- The timer of `run_chrono` fires. -/
  | tick (now : ℤ)
  deriving DecidableEq, Repr

/-- The page, and the last of the three calls it has handled. -/
structure PageHistory where
  page : CronoPage
  last : Option PageCall
  deriving DecidableEq, Repr

def PageHistory.initial (now : ℤ) : PageHistory := ⟨.initial now, none⟩

/-- One call or one timer. -/
def pageHistoryStep (h : PageHistory) : PageInput → Option PageHistory
  | .startRun now val isLocal => some ⟨(h.page.startRun now val isLocal).1, some .startRun⟩
  | .intRun now val isLocal => some { h with page := (h.page.intRun now val isLocal).1 }
  | .stopRun now val isLocal => some ⟨(h.page.stopRun now val isLocal).1, some .stopRun⟩
  | .cReset now isLocal => some ⟨(h.page.cReset now isLocal).1, some .cReset⟩
  | .resume now => (h.page.resume now).map fun page => { h with page }
  | .tick now => (h.page.tick now).map fun page => { h with page }

/-- After a stop or a reset the chronometer is not running. -/
def PageHistory.StaysStopped (h : PageHistory) : Prop :=
  h.last = some .stopRun ∨ h.last = some .cReset → h.page.chrono.running = false

/-- The timer of an `int_run` fires only after a `start_run`. -/
def PageHistory.ResumesRun (h : PageHistory) : PageInput → Prop
  | .resume _ => h.last = some .startRun
  | _ => True

/-! ## One step -/

/-- Without a `start_run` the chronometer is not paused either, and a page that has handled none
of the calls has no timer waiting. -/
structure PageHistory.Consistent (h : PageHistory) : Prop where
  paused : h.last ≠ some .startRun → h.page.chrono.started = h.page.chrono.running
  fresh : h.last = none → h.page.resumes = 0 ∧ h.page.chrono.started = false

lemma pageHistory_consistent_initial (now : ℤ) : (PageHistory.initial now).Consistent :=
  ⟨fun _ => rfl, fun _ => ⟨rfl, rfl⟩⟩

lemma started_eq_of_not_running {c : Chrono} (h : c.started = false) : c.started = c.running := by
  have hrunning : c.running = false := by
    unfold Chrono.started at h
    exact (Bool.or_eq_false_iff.mp h).1
  rw [h, hrunning]

/-- An intermediate time does nothing to a chronometer that is not started. -/
lemma intRun_of_not_started {now val : ℤ} {isLocal : Bool} {p : CronoPage}
    (h : p.chrono.started = false) : (p.intRun now val isLocal).1 = p := by
  simp [CronoPage.intRun, h]

/-- Where the chronometer stays stopped, an intermediate time does nothing without a run. -/
lemma PageHistory.Consistent.intRun_eq {h : PageHistory} (hc : h.Consistent)
    (hs : h.StaysStopped) (hlast : h.last ≠ some .startRun) (now val : ℤ) (isLocal : Bool) :
    (h.page.intRun now val isLocal).1 = h.page := by
  refine intRun_of_not_started ?_
  rcases hlast' : h.last with - | call
  · exact (hc.fresh hlast').2
  · cases call with
    | startRun => exact absurd hlast' hlast
    | stopRun => rw [hc.paused hlast, hs (.inl hlast')]
    | cReset => rw [hc.paused hlast, hs (.inr hlast')]

/-- Where the chronometer stays stopped, a step keeps the consistency. -/
lemma pageHistory_consistent_step {h t : PageHistory} {i : PageInput} (hc : h.Consistent)
    (hs : h.StaysStopped) (hstep : pageHistoryStep h i = some t) : t.Consistent := by
  cases i with
  | startRun now val isLocal =>
    cases hstep
    exact ⟨fun hlast => absurd rfl hlast, fun hlast => by cases hlast⟩
  | stopRun now val isLocal =>
    cases hstep
    exact ⟨fun _ => started_eq_of_not_running (h.page.started_stopRun now val isLocal),
      fun hlast => by cases hlast⟩
  | cReset now isLocal =>
    cases hstep
    exact ⟨fun _ => started_eq_of_not_running (h.page.started_cReset now isLocal),
      fun hlast => by cases hlast⟩
  | intRun now val isLocal =>
    cases hstep
    refine ⟨fun hlast => ?_, fun hlast => ?_⟩
    · dsimp only at hlast ⊢
      rw [hc.intRun_eq hs hlast]
      exact hc.paused hlast
    · dsimp only at hlast ⊢
      rw [hc.intRun_eq hs (by rw [hlast]; decide)]
      exact hc.fresh hlast
  | resume now =>
    obtain ⟨p, hp, rfl⟩ := Option.map_eq_some_iff.mp hstep
    have hrunning := CronoPage.started_resume hp
    refine ⟨fun _ => ?_, fun hlast => ?_⟩
    · simp [Chrono.started, hrunning]
    · simp [CronoPage.resume, (hc.fresh hlast).1] at hp
  | tick now =>
    obtain ⟨p, hp, rfl⟩ := Option.map_eq_some_iff.mp hstep
    obtain ⟨hrunning, hstarted⟩ := CronoPage.started_tick hp
    refine ⟨fun hlast => ?_, fun hlast => ?_⟩
    · rw [hstarted, hrunning]
      exact hc.paused hlast
    · refine ⟨?_, hstarted.trans (hc.fresh hlast).2⟩
      obtain ⟨c, -, rfl⟩ := Option.map_eq_some_iff.mp hp
      exact (hc.fresh hlast).1

/-- A step keeps the chronometer stopped exactly if it does not resume a run that is over. -/
lemma staysStopped_step_iff {h t : PageHistory} {i : PageInput} (hc : h.Consistent)
    (hs : h.StaysStopped) (hstep : pageHistoryStep h i = some t) :
    t.StaysStopped ↔ h.ResumesRun i := by
  have hnot {c : Chrono} (hstarted : c.started = false) : c.running = false := by
    rw [← started_eq_of_not_running hstarted, hstarted]
  cases i with
  | startRun now val isLocal =>
    cases hstep
    exact iff_of_true (fun hlast => by rcases hlast with hlast | hlast <;> cases hlast) trivial
  | stopRun now val isLocal =>
    cases hstep
    exact iff_of_true (fun _ => hnot (h.page.started_stopRun now val isLocal)) trivial
  | cReset now isLocal =>
    cases hstep
    exact iff_of_true (fun _ => hnot (h.page.started_cReset now isLocal)) trivial
  | intRun now val isLocal =>
    cases hstep
    refine iff_of_true (fun hlast => hnot ?_) trivial
    have hstart : h.last ≠ some .startRun := by
      rcases hlast with hlast | hlast <;> simp_all
    dsimp only
    rw [h.page.started_intRun now val isLocal, hc.paused hstart, hs hlast]
  | tick now =>
    obtain ⟨p, hp, rfl⟩ := Option.map_eq_some_iff.mp hstep
    exact iff_of_true (fun hlast => (CronoPage.started_tick hp).1.trans (hs hlast)) trivial
  | resume now =>
    obtain ⟨p, hp, rfl⟩ := Option.map_eq_some_iff.mp hstep
    have hrunning := CronoPage.started_resume hp
    constructor
    · intro hstays
      change h.last = some .startRun
      rcases hlast : h.last with - | call
      · simp [CronoPage.resume, (hc.fresh hlast).1] at hp
      · cases call with
        | startRun => rfl
        | stopRun => exact absurd (hstays (.inl hlast)) (by simp [hrunning])
        | cReset => exact absurd (hstays (.inr hlast)) (by simp [hrunning])
    · intro hlast hended
      change h.last = some .startRun at hlast
      rcases hended with hended | hended <;> simp_all

/-! ## Runs -/

/-- **A chronometer that was stopped.** For every interleaving of the calls and the timers, from
the moment the page is loaded: after each stop and each reset the chronometer is not running
until the next start, if and only if every timer of an `int_run` fires while the last of the
three calls is a `start_run`. -/
theorem staysStopped_iff_along (now : ℤ) (inputs : List PageInput) :
    Always pageHistoryStep PageHistory.StaysStopped (.initial now) inputs ↔
      Along pageHistoryStep PageHistory.ResumesRun (.initial now) inputs :=
  always_iff_along_of_inv (fun _ _ _ hc hs hstep => pageHistory_consistent_step hc hs hstep)
    (fun _ _ _ hc hs hstep => staysStopped_step_iff hc hs hstep) (pageHistory_consistent_initial now)
    fun hlast => by rcases hlast with hlast | hlast <;> cases hlast

/-- A start, an intermediate time after 20 seconds, a stop three seconds later, and the timer. -/
theorem resumed_after_stop :
    ¬ ∀ (now : ℤ) (inputs : List PageInput),
      Always pageHistoryStep PageHistory.StaysStopped (.initial now) inputs := by
  intro h
  let inputs : List PageInput :=
    [.startRun 10000 0 true, .intRun 30000 0 true, .stopRun 33000 0 true, .resume 35000]
  obtain ⟨t, ht, hlast, hrunning⟩ : ∃ t, run pageHistoryStep (.initial 0) inputs = some t ∧
      t.last = some .stopRun ∧ t.page.chrono.running = true := ⟨_, rfl, rfl, rfl⟩
  have hstopped := (h 0 inputs).of_run ht (.inl hlast)
  rw [hrunning] at hstopped
  cases hstopped

end SerialChrono
