import SerialChrono.Managers.Serial

/-!
# The serial thread against the main thread (`serial_mgr.c`)

The serial thread loads the driver of the chronometer step by step, and main may handle lines all
the while.  `sc_thread_create` gives the slot its index before the thread runs, and the first thing
the thread does is to publish its handlers: from then on main calls them, although the functions of
the driver they call come later; and so it does for a while after the driver is gone.

`threadStep` is a step of `serial_manager_thread`, with each of its exits, and `dispatchStep` one of
main for the slot of the serial thread: it looks at the index, at the handlers, and calls one.
`calls_ready_iff` says of each call when it finds the driver ready; `calls_ready` says which
schedules are safe: when main may take a line for the driver, and how long the thread has to wait
with its `dlclose`.
-/

namespace SerialChrono

open CText PartialRun

/-! ## The serial thread -/

/-- The functions of a driver, in the order the thread looks them up. -/
inductive EntryPoint
  | moduleInit | moduleEnd | moduleOpen | moduleClose | moduleRead | moduleWrite | moduleError
  deriving DecidableEq, Repr

/-- What the thread does next. -/
inductive ThreadPoint
  /-- `slot->entries=entries` -/
  | publish
  /-- `memset(&entry_points,0,...)` -/
  | clear
  /-- `connectUDP` -/
  | connect
  /-- `dlopen` -/
  | load
  /-- `dlsym` -/
  | lookUp (name : EntryPoint)
  /-- The test for missing functions. -/
  | verify
  /-- `module_init` -/
  | initModule
  /-- `dlclose`, of a driver that lacks a function or has not been initialized. -/
  | drop
  /-- `module_open` -/
  | openModule
  /-- `slot->index=slotIndex` -/
  | markAlive
  /-- A turn of the loop. -/
  | loop
  /-- `module_close` -/
  | closeModule
  /-- `module_end` -/
  | endModule
  /-- `dlclose` -/
  | unload
  /-- `slot->index=-1` -/
  | markGone
  | returned
  deriving DecidableEq, Repr

/-- What the thread does after it has looked a function up. -/
def EntryPoint.after : EntryPoint → ThreadPoint
  | .moduleInit => .lookUp .moduleEnd
  | .moduleEnd => .lookUp .moduleOpen
  | .moduleOpen => .lookUp .moduleClose
  | .moduleClose => .lookUp .moduleRead
  | .moduleRead => .lookUp .moduleWrite
  | .moduleWrite => .lookUp .moduleError
  | .moduleError => .verify

/-- What main does next about the slot of the serial thread. -/
inductive DispatchPoint
  /-- It waits for a line. -/
  | idle
  | testIndex (command : Command) (tokens : Tokens)
  | testEntries (command : Command) (tokens : Tokens)
  | call (command : Command) (tokens : Tokens)

/-- How main finds the driver when it calls a handler that goes on to `module_write`. -/
structure DriverFound where
  moduleWrite : Bool
  loaded : Bool
  initialized : Bool
  deriving DecidableEq, Repr

/-- The two threads, the slot and the entry points between them. -/
structure ThreadWorld where
  config : Configuration
  /-- `slot->index` -/
  index : ℤ
  /-- `slot->entries` is not NULL. -/
  entries : Bool
  /-- The pointers of `entry_points` that are not NULL. -/
  entryPoints : EntryPoint → Bool
  /-- The library is loaded. -/
  loaded : Bool
  /-- `module_init` has succeeded. -/
  initialized : Bool
  thread : ThreadPoint
  dispatch : DispatchPoint
  calls : List DriverFound

/-- A step of `serial_manager_thread`; `ok` is the outcome of the function it calls, for a turn of
the loop whether `send` has gone well. -/
def threadStep (s : ThreadWorld) (ok : Bool) : Option ThreadWorld :=
  match s.thread with
  | .publish => some { s with entries := true, thread := .clear }
  | .clear => some { s with entryPoints := fun _ => false, thread := .connect }
  | .connect => some { s with thread := if ok then .load else .markGone }
  | .load =>
    if ok then some { s with loaded := true, thread := .lookUp .moduleInit }
    else some { s with thread := .markGone }
  | .lookUp name => some { s with
      entryPoints := Function.update s.entryPoints name ok
      thread := name.after }
  | .verify => some { s with
      thread :=
        if s.entryPoints .moduleInit && s.entryPoints .moduleEnd && s.entryPoints .moduleOpen &&
          s.entryPoints .moduleClose && s.entryPoints .moduleRead && s.entryPoints .moduleWrite &&
          s.entryPoints .moduleError then .initModule else .drop }
  | .initModule =>
    if ok then some { s with initialized := true, thread := .openModule }
    else some { s with thread := .drop }
  | .drop => some { s with loaded := false, thread := .markGone }
  | .openModule => some { s with thread := if ok then .markAlive else .endModule }
  | .markAlive => some { s with index := 1, thread := .loop }
  | .loop => some { s with thread := if !ok || s.index < 0 then .closeModule else .loop }
  | .closeModule => some { s with thread := .endModule }
  | .endModule => some { s with thread := .unload }
  | .unload => some { s with loaded := false, thread := .markGone }
  | .markGone => some { s with index := -1, thread := .returned }
  | .returned => none

/-! ## The main thread -/

/-- Main takes a line and runs the handler of `main_mgr`. -/
def takeLine (s : ThreadWorld) (datagram : List Char) : Option ThreadWorld :=
  match s.dispatch with
  | .idle => do
    let buffer ← receive datagram
    match ← mainFront s.config buffer with
    | .answered _ config => return { s with config }
    | .dispatch command tokens config =>
      return { s with config, dispatch := .testIndex command tokens }
  | _ => none

/-- A step of the dispatch of a line to the serial thread. -/
def dispatchStep (s : ThreadWorld) : Option ThreadWorld :=
  match s.dispatch with
  | .idle => none
  | .testIndex command tokens =>
    some { s with dispatch := if s.index < 0 then .idle else .testEntries command tokens }
  | .testEntries command tokens =>
    some { s with dispatch := if s.entries then .call command tokens else .idle }
  | .call command tokens =>
    match serialCall command tokens with
    | some (.moduleWrite _ _) => some { s with
        dispatch := .idle
        calls := s.calls ++ [⟨s.entryPoints .moduleWrite, s.loaded, s.initialized⟩] }
    | _ => some { s with dispatch := .idle }

/-- The steps of the threads. -/
inductive ThreadInput
  | thread (ok : Bool)
  | line (datagram : List Char)
  | dispatch
  /-- Another thread writes to the configuration. -/
  | write (config : Configuration)

def ThreadWorld.step (s : ThreadWorld) : ThreadInput → Option ThreadWorld
  | .thread ok => threadStep s ok
  | .line datagram => takeLine s datagram
  | .dispatch => dispatchStep s
  | .write config => some { s with config }

/-- After `sc_thread_create`. -/
def ThreadWorld.start (config : Configuration) : ThreadWorld where
  config := config
  index := 1
  entries := false
  entryPoints _ := false
  loaded := false
  initialized := false
  thread := .publish
  dispatch := .idle
  calls := []

/-! ## What a step does -/

/-- The handler of the command goes on to `module_write`. -/
def goesToDriver (command : Command) (tokens : Tokens) : Bool :=
  match serialCall command tokens with
  | some (.moduleWrite _ _) => true
  | _ => false

/-- Main is at the call of a handler that goes on to `module_write`. -/
def DispatchPoint.forwards : DispatchPoint → Bool
  | .call command tokens => goesToDriver command tokens
  | _ => false

/-- How a call that goes on to `module_write` finds the driver. -/
def ThreadWorld.found (s : ThreadWorld) : DriverFound :=
  ⟨s.entryPoints .moduleWrite, s.loaded, s.initialized⟩

lemma takeLine_spec {s t : ThreadWorld} {datagram : List Char} (h : takeLine s datagram = some t) :
    ∃ config dispatch, t = { s with config, dispatch } := by
  unfold takeLine at h
  split at h
  · obtain ⟨buffer, -, h⟩ := Option.bind_eq_some_iff.mp h
    obtain ⟨front, -, h⟩ := Option.bind_eq_some_iff.mp h
    rcases front with ⟨response, config⟩ | ⟨command, tokens, config⟩
    · cases h
      exact ⟨config, s.dispatch, rfl⟩
    · cases h
      exact ⟨config, _, rfl⟩
  · cases h

/-- Only a call that goes on to `module_write` is recorded. -/
lemma dispatchStep_spec {s t : ThreadWorld} (h : dispatchStep s = some t) :
    ∃ dispatch, t = { s with
      dispatch, calls := s.calls ++ if s.dispatch.forwards then [s.found] else [] } := by
  unfold dispatchStep at h
  cases hdispatch : s.dispatch with
  | idle =>
    rw [hdispatch] at h
    cases h
  | testIndex command tokens | testEntries command tokens =>
    simp only [hdispatch, Option.some.injEq] at h
    refine ⟨t.dispatch, ?_⟩
    rw [← h]
    simp only [DispatchPoint.forwards, Bool.false_eq_true, if_false, List.append_nil]
  | call command tokens =>
    rcases hserial : serialCall command tokens with - | (res | ⟨tokens', ntokens⟩) <;>
      simp only [hdispatch, hserial, Option.some.injEq] at h <;>
      refine ⟨.idle, ?_⟩ <;> rw [← h] <;>
      simp only [DispatchPoint.forwards, goesToDriver, hserial]
    · rw [if_neg Bool.false_ne_true, List.append_nil]
    · rw [if_neg Bool.false_ne_true, List.append_nil]
    · rfl

lemma threadStep_calls {s t : ThreadWorld} {ok : Bool} (h : threadStep s ok = some t) :
    t.calls = s.calls := by
  unfold threadStep at h
  cases hpoint : s.thread with
  | load | initModule =>
    simp only [hpoint] at h
    split_ifs at h <;> cases h <;> rfl
  | returned =>
    rw [hpoint] at h
    cases h
  | _ =>
    simp only [hpoint, Option.some.injEq] at h
    rw [← h]

/-- The slot as the loop over the threads finds it, if nothing comes in between. -/
def ThreadWorld.slot {W : Type} (s : ThreadWorld)
    (handlers : Command → Option (ThreadHandler W)) : ThreadSlot W :=
  ⟨s.index, if s.entries then some handlers else none⟩

/-- If nothing comes between the tests, main gets to the handler exactly if the slot is alive. -/
theorem dispatch_undisturbed {W : Type} (handlers : Command → Option (ThreadHandler W))
    {s : ThreadWorld} {command : Command} {tokens : Tokens}
    (hs : s.dispatch = .testIndex command tokens) :
    (∃ t, run ThreadWorld.step s [.dispatch, .dispatch] = some t ∧
      t.dispatch = .call command tokens) ↔ (s.slot handlers).isAlive = true := by
  have hfirst : s.step .dispatch = some { s with
      dispatch := if s.index < 0 then .idle else .testEntries command tokens } := by
    rw [ThreadWorld.step, dispatchStep, hs]
  unfold ThreadSlot.isAlive ThreadWorld.slot
  rw [run_cons, hfirst, Option.bind_some, run_cons]
  by_cases hindex : s.index < 0
  · rw [if_pos hindex]
    refine iff_of_false ?_ ?_
    · rintro ⟨t, ht, -⟩
      cases ht
    · simp [hindex]
  · have hsecond : ThreadWorld.step { s with dispatch := .testEntries command tokens } .dispatch =
        some { s with dispatch := if s.entries then .call command tokens else .idle } := rfl
    rw [if_neg hindex, hsecond, Option.bind_some]
    rcases hentries : s.entries
    · refine iff_of_false ?_ (by simp)
      rintro ⟨t, ht, hcall⟩
      cases ht
      cases hcall
    · refine iff_of_true ⟨_, rfl, rfl⟩ ?_
      simp only [if_true, Option.isSome_some, Bool.and_true, decide_eq_true_eq]
      omega

/-! ## The driver along the thread -/

/-- The library is loaded. -/
def ThreadPoint.isLoaded : ThreadPoint → Bool
  | .lookUp _ | .verify | .initModule | .drop | .openModule | .markAlive | .loop | .closeModule
  | .endModule | .unload => true
  | _ => false

/-- The driver has been initialized and is still there. -/
def ThreadPoint.isReady : ThreadPoint → Bool
  | .openModule | .markAlive | .loop | .closeModule | .endModule | .unload => true
  | _ => false

/-- The thread has found all the functions. -/
def ThreadPoint.isVerified (point : ThreadPoint) : Bool := point = .initModule || point.isReady

/-- The driver has never been initialized. -/
def ThreadPoint.isEarly : ThreadPoint → Bool
  | .publish | .clear | .connect | .load | .lookUp _ | .verify | .initModule | .drop => true
  | _ => false

/-- What the point of the thread says about the driver. -/
structure ThreadWorld.Consistent (s : ThreadWorld) : Prop where
  loaded : s.loaded = s.thread.isLoaded
  ready : s.thread.isReady = true → s.initialized = true
  early : s.thread.isEarly = true → s.initialized = false
  verified : s.thread.isVerified = true → s.entryPoints .moduleWrite = true

/-- Nothing more is said about the driver at the second point than at the first. -/
def ThreadPoint.Forgets (point next : ThreadPoint) : Prop :=
  next.isLoaded = point.isLoaded ∧ (next.isReady = true → point.isReady = true) ∧
    (next.isEarly = true → point.isEarly = true) ∧
    (next.isVerified = true → point.isVerified = true)

instance (point next : ThreadPoint) : Decidable (point.Forgets next) :=
  inferInstanceAs (Decidable (_ ∧ _))

/-- A step that does nothing to the driver. -/
lemma ThreadWorld.Consistent.of_forgets {s t : ThreadWorld} (hs : s.Consistent)
    (hloaded : t.loaded = s.loaded) (hinitialized : t.initialized = s.initialized)
    (hpoints : t.entryPoints = s.entryPoints) {point next : ThreadPoint} (hpoint : s.thread = point)
    (hnext : t.thread = next) (hforgets : point.Forgets next) : t.Consistent := by
  subst hpoint hnext
  obtain ⟨hsame, hready, hearly, hverified⟩ := hforgets
  refine ⟨?_, fun h => ?_, fun h => ?_, fun h => ?_⟩
  · rw [hloaded, hsame, hs.loaded]
  · rw [hinitialized, hs.ready (hready h)]
  · rw [hinitialized, hs.early (hearly h)]
  · rw [hpoints, hs.verified (hverified h)]

/-- Without the library, nothing else is said about the driver. -/
lemma ThreadWorld.Consistent.of_unloaded {s : ThreadWorld} (hloaded : s.loaded = false)
    (hthread : s.thread = .markGone) : s.Consistent := by
  refine ⟨?_, fun h => ?_, fun h => ?_, fun h => ?_⟩
  · rw [hloaded, hthread]
    rfl
  all_goals
    rw [hthread] at h
    cases h

lemma after_spec (name : EntryPoint) :
    name.after.isLoaded = true ∧ name.after.isReady = false ∧ name.after.isEarly = true ∧
      name.after.isVerified = false := by
  cases name <;> decide

/-- The thread keeps what its point says. -/
lemma consistent_threadStep {s t : ThreadWorld} {ok : Bool} (hs : s.Consistent)
    (h : threadStep s ok = some t) : t.Consistent := by
  have hloaded := hs.loaded
  have hearly := hs.early
  unfold threadStep at h
  cases hpoint : s.thread with
  | clear =>
    simp only [hpoint, Option.some.injEq] at h hloaded hearly
    subst h
    exact ⟨hloaded, (fun hr => by cases hr), fun _ => hearly rfl, (fun hv => by cases hv)⟩
  | load =>
    simp only [hpoint] at h hearly
    split_ifs at h <;> cases h
    · exact ⟨rfl, (fun hr => by cases hr), fun _ => hearly rfl, (fun hv => by cases hv)⟩
    · exact hs.of_forgets rfl rfl rfl hpoint rfl (by dsimp only; decide)
  | lookUp name =>
    obtain ⟨hafter, hunready, hstill, hunverified⟩ := after_spec name
    simp only [hpoint, Option.some.injEq] at h hloaded hearly
    subst h
    refine ⟨hloaded.trans hafter.symm, fun hr => ?_, fun _ => hearly rfl, fun hv => ?_⟩
    · exact absurd hr (by simp [hunready])
    · exact absurd hv (by simp [hunverified])
  | verify =>
    simp only [hpoint, Option.some.injEq] at h hloaded hearly
    subst h
    split_ifs with hall
    · simp only [Bool.and_eq_true] at hall
      exact ⟨hloaded, (fun hr => by cases hr), fun _ => hearly rfl, fun _ => hall.1.2⟩
    · exact hs.of_forgets rfl rfl rfl hpoint rfl (by dsimp only; decide)
  | initModule =>
    simp only [hpoint] at h hloaded
    split_ifs at h <;> cases h
    · exact ⟨hloaded, fun _ => rfl, (fun he => by cases he),
        fun _ => hs.verified (by rw [hpoint]; rfl)⟩
    · exact hs.of_forgets rfl rfl rfl hpoint rfl (by dsimp only; decide)
  | drop | unload =>
    simp only [hpoint, Option.some.injEq] at h
    subst h
    exact .of_unloaded rfl rfl
  | connect | openModule | loop =>
    simp only [hpoint, Option.some.injEq] at h
    subst h
    split_ifs <;> exact hs.of_forgets rfl rfl rfl hpoint rfl (by dsimp only; decide)
  | publish | markAlive | closeModule | endModule | markGone =>
    simp only [hpoint, Option.some.injEq] at h
    subst h
    exact hs.of_forgets rfl rfl rfl hpoint rfl (by dsimp only; decide)
  | returned =>
    rw [hpoint] at h
    cases h

/-- Main and the other threads leave the driver and its thread alone. -/
lemma main_frame {s t : ThreadWorld} {input : ThreadInput} (hinput : ∀ ok, input ≠ .thread ok)
    (h : s.step input = some t) :
    t.loaded = s.loaded ∧ t.initialized = s.initialized ∧ t.entryPoints = s.entryPoints ∧
      t.thread = s.thread := by
  cases input with
  | thread ok => exact absurd rfl (hinput ok)
  | line datagram =>
    obtain ⟨config, dispatch, rfl⟩ := takeLine_spec h
    exact ⟨rfl, rfl, rfl, rfl⟩
  | dispatch =>
    obtain ⟨dispatch, rfl⟩ := dispatchStep_spec h
    exact ⟨rfl, rfl, rfl, rfl⟩
  | write config =>
    cases h
    exact ⟨rfl, rfl, rfl, rfl⟩

lemma forgets_self (point : ThreadPoint) : point.Forgets point := ⟨rfl, id, id, id⟩

lemma consistent_step {s t : ThreadWorld} {input : ThreadInput} (hs : s.Consistent)
    (h : s.step input = some t) : t.Consistent := by
  by_cases hthread : ∃ ok, input = .thread ok
  · obtain ⟨ok, rfl⟩ := hthread
    exact consistent_threadStep hs h
  · obtain ⟨hloaded, hinitialized, hpoints, hpoint⟩ :=
      main_frame (fun ok hok => hthread ⟨ok, hok⟩) h
    exact hs.of_forgets hloaded hinitialized hpoints rfl hpoint (forgets_self s.thread)

lemma consistent_start (config : Configuration) : (ThreadWorld.start config).Consistent :=
  ⟨rfl, (fun h => by cases h), fun _ => rfl, (fun h => by cases h)⟩

/-! ## The calls -/

/-- The pointer is set, the library is loaded and the driver has been initialized. -/
def DriverFound.Ready (call : DriverFound) : Prop :=
  call.moduleWrite = true ∧ call.loaded = true ∧ call.initialized = true

/-- Every call of a handler that goes on to `module_write` has found the driver ready. -/
def ThreadWorld.CallsReady (s : ThreadWorld) : Prop := ∀ call ∈ s.calls, call.Ready

/-- When main calls a handler that goes on to `module_write`, the thread has gone past
`module_init` and has not unloaded the library. -/
def ThreadInput.InTime (s : ThreadWorld) : ThreadInput → Prop
  | .dispatch => s.dispatch.forwards = true → s.thread.isReady = true
  | _ => True

lemma isReady_eq (point : ThreadPoint) :
    point.isReady = (point.isLoaded && !point.isEarly) := by
  cases point <;> rfl

/-- The point of the thread tells whether the driver is ready. -/
lemma ready_iff {s : ThreadWorld} (hs : s.Consistent) :
    s.found.Ready ↔ s.thread.isReady = true := by
  constructor
  · rintro ⟨-, hloaded, hinitialized⟩
    have hloaded : s.loaded = true := hloaded
    have hinitialized : s.initialized = true := hinitialized
    rw [isReady_eq, Bool.and_eq_true, ← hs.loaded, Bool.not_eq_true']
    refine ⟨hloaded, ?_⟩
    by_contra hearly
    rw [hs.early ((Bool.not_eq_false _).mp hearly)] at hinitialized
    cases hinitialized
  · intro h
    have hloaded : s.thread.isLoaded = true := by
      rw [isReady_eq, Bool.and_eq_true] at h
      exact h.1
    have hverified : s.thread.isVerified = true := by
      rw [ThreadPoint.isVerified, h, Bool.or_true]
    exact ⟨hs.verified hverified, hs.loaded.trans hloaded, hs.ready h⟩

/-- A step keeps the calls good exactly if it is in time. -/
lemma callsReady_step_iff {s t : ThreadWorld} {input : ThreadInput} (hs : s.Consistent)
    (hcalls : s.CallsReady) (h : s.step input = some t) :
    t.CallsReady ↔ input.InTime s := by
  have hsame : t.calls = s.calls → t.CallsReady := fun heq call hcall => hcalls call (heq ▸ hcall)
  cases input with
  | thread ok => exact iff_of_true (hsame (threadStep_calls h)) trivial
  | line datagram =>
    obtain ⟨config, dispatch, rfl⟩ := takeLine_spec h
    exact iff_of_true (hsame rfl) trivial
  | dispatch =>
    obtain ⟨dispatch, rfl⟩ := dispatchStep_spec h
    unfold ThreadInput.InTime
    by_cases hforwards : s.dispatch.forwards = true
    · have hnew : ThreadWorld.CallsReady
          { s with dispatch, calls := s.calls ++ [s.found] } ↔ s.found.Ready := by
        constructor
        · exact fun hall => hall _ (List.mem_append_right _ List.mem_cons_self)
        · intro hready call hcall
          rcases List.mem_append.mp hcall with hold | hlast
          · exact hcalls call hold
          · rw [List.mem_singleton.mp hlast]
            exact hready
      rw [if_pos hforwards, hnew, ready_iff hs]
      exact ⟨fun hready _ => hready, fun hready => hready hforwards⟩
    · rw [if_neg hforwards, List.append_nil]
      exact iff_of_true hcalls fun hf => absurd hf hforwards
  | write config =>
    cases h
    exact iff_of_true hcalls trivial

/-- For every interleaving of the steps of the serial thread, with any outcome of the functions it
calls, of lines and of the steps of their dispatch: the calls that go on to `module_write` find the
driver ready if and only if the thread is at such a point whenever one of them is made. -/
theorem calls_ready_iff (config : Configuration) (inputs : List ThreadInput) :
    Always ThreadWorld.step ThreadWorld.CallsReady (.start config) inputs ↔
      Along ThreadWorld.step (fun s input => input.InTime s) (.start config) inputs := by
  have hstart : (ThreadWorld.start config).CallsReady := fun call hcall => by cases hcall
  exact always_iff_along (fun s input t hs h => consistent_step hs h)
    (fun s input t hs hcalls h => callsReady_step_iff hs hcalls h) (consistent_start config) hstart

/-! ## Schedules -/

/-- Main holds a line for the driver. -/
def DispatchPoint.forDriver : DispatchPoint → Bool
  | .idle => false
  | .testIndex command tokens | .testEntries command tokens | .call command tokens =>
    goesToDriver command tokens

/-- `module_init` has succeeded, and the thread is not on its way out. -/
def ThreadPoint.isServing : ThreadPoint → Bool
  | .openModule | .markAlive | .loop => true
  | _ => false

/-- The schedule of the two threads: main takes a line for the driver only while the thread serves
the chronometer or after it has returned, and `dlclose` waits until main is through with such a
line. -/
def ThreadInput.OnTime (s : ThreadWorld) : ThreadInput → Prop
  | .line datagram => (∃ t ∈ takeLine s datagram, t.dispatch.forDriver = true) →
      s.thread.isServing = true ∨ s.thread = .returned
  | .thread _ => s.dispatch.forDriver = true → s.thread ≠ .unload
  | _ => True

instance (s : ThreadWorld) (input : ThreadInput) : Decidable (input.OnTime s) := by
  cases input <;> unfold ThreadInput.OnTime <;> infer_instance

/-- A line for the driver that main holds has met the thread between `module_init` and `dlclose`,
or after its end, when the index sends it back. -/
structure ThreadWorld.Timely (s : ThreadWorld) : Prop where
  gone : s.thread = .returned → s.index < 0
  held : s.dispatch.forDriver = true → s.thread.isReady = true ∨
    (s.thread = .returned ∧ ∃ command tokens, s.dispatch = .testIndex command tokens)

lemma isReady_of_isServing {point : ThreadPoint} (h : point.isServing = true) :
    point.isReady = true := by
  cases point <;> first | rfl | cases h

/-- Between `module_init` and `dlclose` the thread stays there. -/
lemma isReady_threadStep {s t : ThreadWorld} {ok : Bool} (h : threadStep s ok = some t)
    (hready : s.thread.isReady = true) (hunload : s.thread ≠ .unload) :
    t.thread.isReady = true := by
  unfold threadStep at h
  cases hpoint : s.thread with
  | unload => exact absurd hpoint hunload
  | openModule | loop =>
    simp only [hpoint, Option.some.injEq] at h
    subst h
    dsimp only
    split_ifs <;> rfl
  | markAlive | closeModule | endModule =>
    simp only [hpoint, Option.some.injEq] at h
    subst h
    rfl
  | _ =>
    rw [hpoint] at hready
    cases hready

/-- The thread returns once its index is gone. -/
lemma index_of_returned {s t : ThreadWorld} {ok : Bool} (h : threadStep s ok = some t)
    (ht : t.thread = .returned) : t.index < 0 := by
  unfold threadStep at h
  cases hpoint : s.thread with
  | markGone =>
    simp only [hpoint, Option.some.injEq] at h
    subst h
    exact neg_one_lt_zero
  | load | initModule =>
    simp only [hpoint] at h
    split_ifs at h <;> cases h <;> cases ht
  | lookUp name =>
    simp only [hpoint, Option.some.injEq] at h
    subst h
    cases name <;> cases ht
  | verify | connect | openModule | loop =>
    simp only [hpoint, Option.some.injEq] at h
    subst h
    dsimp only at ht
    split_ifs at ht
  | returned =>
    rw [hpoint] at h
    cases h
  | _ =>
    simp only [hpoint, Option.some.injEq] at h
    subst h
    cases ht

lemma threadStep_dispatch {s t : ThreadWorld} {ok : Bool} (h : threadStep s ok = some t) :
    t.dispatch = s.dispatch ∧ s.thread ≠ .returned := by
  unfold threadStep at h
  cases hpoint : s.thread with
  | load | initModule =>
    simp only [hpoint] at h
    split_ifs at h <;> cases h <;> exact ⟨rfl, nofun⟩
  | returned =>
    rw [hpoint] at h
    cases h
  | _ =>
    simp only [hpoint, Option.some.injEq] at h
    rw [← h]
    exact ⟨rfl, nofun⟩

/-- A line that main has just taken is before the test of the index. -/
lemma takeLine_held {s t : ThreadWorld} {datagram : List Char} (h : takeLine s datagram = some t)
    (ht : t.dispatch.forDriver = true) :
    ∃ command tokens, t.dispatch = .testIndex command tokens := by
  unfold takeLine at h
  cases hdispatch : s.dispatch with
  | idle =>
    simp only [hdispatch] at h
    obtain ⟨buffer, -, h⟩ := Option.bind_eq_some_iff.mp h
    obtain ⟨front, -, h⟩ := Option.bind_eq_some_iff.mp h
    rcases front with ⟨response, config⟩ | ⟨command, tokens, config⟩
    · cases h
      cases ht
    · cases h
      exact ⟨command, tokens, rfl⟩
  | _ =>
    simp only [hdispatch] at h
    cases h

/-- A step of the dispatch holds the line it had, or none; it gets past the test of the index only
if that is not negative. -/
lemma dispatchStep_held {s t : ThreadWorld} (h : dispatchStep s = some t)
    (ht : t.dispatch.forDriver = true) :
    s.dispatch.forDriver = true ∧
      ∀ command tokens, s.dispatch = .testIndex command tokens → ¬ s.index < 0 := by
  unfold dispatchStep at h
  cases hdispatch : s.dispatch with
  | idle =>
    rw [hdispatch] at h
    cases h
  | testIndex command tokens =>
    simp only [hdispatch, Option.some.injEq] at h
    subst h
    dsimp only at ht
    split_ifs at ht with hindex
    · cases ht
    · exact ⟨ht, fun _ _ _ => hindex⟩
  | testEntries command tokens =>
    simp only [hdispatch, Option.some.injEq] at h
    subst h
    dsimp only at ht
    split_ifs at ht with hentries
    · exact ⟨ht, nofun⟩
    · cases ht
  | call command tokens =>
    rcases hserial : serialCall command tokens with - | (res | ⟨tokens', ntokens⟩) <;>
      simp only [hdispatch, hserial, Option.some.injEq] at h <;> subst h <;> cases ht

/-- Steps on time keep every line for the driver where it is welcome. -/
lemma timely_step {s t : ThreadWorld} {input : ThreadInput} (hs : s.Timely)
    (htime : input.OnTime s) (h : s.step input = some t) : t.Timely := by
  cases input with
  | thread ok =>
    obtain ⟨hdispatch, hreturned⟩ := threadStep_dispatch h
    refine ⟨index_of_returned h, fun hfor => ?_⟩
    rw [hdispatch] at hfor
    rcases hs.held hfor with hready | ⟨hgone, -⟩
    · exact .inl (isReady_threadStep h hready (htime hfor))
    · exact absurd hgone hreturned
  | line datagram =>
    have hline : takeLine s datagram = some t := h
    have hnew := fun hfor => htime ⟨t, hline, hfor⟩
    have htest := takeLine_held hline
    obtain ⟨config, dispatch, rfl⟩ := takeLine_spec hline
    refine ⟨hs.gone, fun hfor => ?_⟩
    rcases hnew hfor with hserving | hgone
    · exact .inl (isReady_of_isServing hserving)
    · exact .inr ⟨hgone, htest hfor⟩
  | dispatch =>
    have hdispatch : dispatchStep s = some t := h
    have hheld := dispatchStep_held hdispatch
    obtain ⟨dispatch, rfl⟩ := dispatchStep_spec hdispatch
    refine ⟨hs.gone, fun hfor => ?_⟩
    obtain ⟨hfor, hindex⟩ := hheld hfor
    rcases hs.held hfor with hready | ⟨hgone, command, tokens, htest⟩
    · exact .inl hready
    · exact absurd (hs.gone hgone) (hindex command tokens htest)
  | write config =>
    cases h
    exact ⟨hs.gone, hs.held⟩

lemma timely_start (config : Configuration) : (ThreadWorld.start config).Timely :=
  ⟨(fun h => by cases h), (fun h => by cases h)⟩

/-- A call that goes on to `module_write` comes in time. -/
lemma ThreadWorld.Timely.inTime {s : ThreadWorld} (hs : s.Timely) (input : ThreadInput) :
    input.InTime s := by
  cases input with
  | dispatch =>
    intro hforwards
    cases hdispatch : s.dispatch with
    | call command tokens =>
      rw [hdispatch] at hforwards
      rcases hs.held (by rw [hdispatch]; exact hforwards) with hready | ⟨-, c, tokens', htest⟩
      · exact hready
      · rw [hdispatch] at htest
        cases htest
    | _ =>
      rw [hdispatch] at hforwards
      cases hforwards
  | _ => trivial

/-- **Main against the serial thread.** For every interleaving of the steps of the serial thread,
with any outcome of the functions it calls, of lines and of the steps of their dispatch: if main
takes a line for the driver only while the thread serves the chronometer or after it has returned,
and `dlclose` waits until main is through with such a line, then whenever main calls a handler that
goes on to `module_write`, the pointer is set, the library is loaded and `module_init` has
succeeded. -/
theorem calls_ready (config : Configuration) {inputs : List ThreadInput}
    (h : Along ThreadWorld.step (fun s input => input.OnTime s) (.start config) inputs) :
    Always ThreadWorld.step ThreadWorld.CallsReady (.start config) inputs :=
  (calls_ready_iff config inputs).mpr <| h.imp_of_inv
    (fun _ _ _ hs htime hstep => timely_step hs htime hstep)
    (fun _ input _ hs _ _ => hs.inTime input) (timely_start config)

/-- A whole life of the thread: main answers a line while it loads the driver and gives it a `start`
when it is done, the thread goes on while main dispatches a `fault`, the port fails, and the last
line finds the thread gone. -/
def servedInputs : List ThreadInput :=
  .line "console fail".toList :: List.replicate 8 (.thread true) ++
    [.dispatch, .dispatch, .dispatch] ++ List.replicate 7 (.thread true) ++
    [.line "ac_server start 0".toList, .dispatch, .dispatch, .dispatch] ++
    [.line "console fault +".toList, .thread false, .dispatch, .thread true, .dispatch,
      .thread true, .dispatch] ++
    [.thread true, .thread true, .line "console reset".toList, .dispatch]

theorem calls_ready_served :
    ((run ThreadWorld.step (.start defaultOptions) servedInputs).map fun s =>
        (s.thread, s.calls)) = some (.returned, [⟨true, true, true⟩, ⟨true, true, true⟩]) ∧
      Along ThreadWorld.step (fun s input => input.OnTime s) (.start defaultOptions)
        servedInputs ∧
      Always ThreadWorld.step ThreadWorld.CallsReady (.start defaultOptions) servedInputs := by
  have htime : Along ThreadWorld.step (fun s input => input.OnTime s) (.start defaultOptions)
      servedInputs := by decide
  exact ⟨by decide, htime, calls_ready defaultOptions htime⟩

/-- A `start` that main takes when the thread has published its handlers and not yet looked
`module_write` up. -/
theorem call_without_driver :
    ¬ ∀ config inputs,
      Always ThreadWorld.step ThreadWorld.CallsReady (.start config) inputs := by
  intro h
  let inputs : List ThreadInput :=
    [.thread true, .line "ac_server start 0".toList, .dispatch, .dispatch, .dispatch]
  have hrun : (run ThreadWorld.step (.start defaultOptions) inputs).map ThreadWorld.calls =
      some [⟨false, false, false⟩] := by decide
  obtain ⟨s, hs, hcalls⟩ := Option.map_eq_some_iff.mp hrun
  have hready := (h defaultOptions inputs).of_run hs ⟨false, false, false⟩
    (by rw [hcalls]; exact List.mem_cons_self)
  exact absurd hready.1 Bool.false_ne_true

end SerialChrono
