import SerialChrono.Canometroweb.Polling
import SerialChrono.MainSpec
import SerialChrono.Managers.Network

/-!
# Faults that are lost

A fault is counted twice: the main thread adds it to the status, and then the handler of the
network manager brings the count of the chronometer up to it.  A poll that comes between the two
finds the old count, and sends it to the main thread, which by then may have finished with the
fault: it then takes it back.  The next poll repairs this, unless another fault comes first, which
the chronometer does not need any more.

`faults_kept` is about every interleaving of polls, lines and the two halves of a line: as long as
every fault finds the counts equal, none is lost.  `fault_lost` is the run above.
-/

namespace SerialChrono

open CText PartialRun

variable {D : Type}

/-! ## A chronometer that counts -/

/-- A chronometer whose faults only the requests for them change, and whose status tells them. -/
structure CountingChronometer (D : Type) where
  device : Device D
  readXml : XmlReader
  faltas : D → ℤ
  isInt : ∀ d, IsInt (faltas d)
  status : ∀ d, faltas (device.respond d statusRequest).2 = faltas d
  status_faltas : ∀ d, ∀ answer ∈ (device.respond d statusRequest).1, ∀ data,
    parseStatusXml readXml .zero answer = some (some data) → data.faltas = faltas d
  idle : ∀ d, faltas (device.respond d idleRequest).2 = faltas d
  more : ∀ d, IsInt (faltas d + 1) →
    faltas (device.respond d (actionRequest "F".toList "1".toList)).2 = faltas d + 1
  less : ∀ d, IsInt (faltas d - 1) →
    faltas (device.respond d (actionRequest "F".toList "-1".toList)).2 = faltas d - 1
  total : ∀ d n, IsInt n →
    faltas (device.respond d (actionRequest "TF".toList (printInt n))).2 = n
  refusals : ∀ d valor, faltas (device.respond d (actionRequest "R".toList valor)).2 = faltas d
  totalRefusals : ∀ d valor,
    faltas (device.respond d (actionRequest "TR".toList valor)).2 = faltas d
  eliminated : ∀ d valor, faltas (device.respond d (actionRequest "E".toList valor)).2 = faltas d

/-! ## The synchronization -/

variable (c : CountingChronometer D)

/-- One by one, the faults of the chronometer go to `target`. -/
lemma after_faltas {target : ℤ} (htarget : IsInt target) (d : D) :
    c.faltas (c.device.after d (stepRequests "F".toList target (c.faltas d))) = target := by
  refine (after_stepRequests c.device "F".toList c.faltas (fun _ => True) target
    (fun e _ hlt => ⟨trivial, c.more e ?_⟩) (fun e _ hgt => ⟨trivial, c.less e ?_⟩) trivial).2
  · have hint := c.isInt e
    unfold IsInt at htarget hint ⊢
    omega
  · have hint := c.isInt e
    unfold IsInt at htarget hint ⊢
    omega

/-- The refusals do not touch the faults. -/
lemma after_refusals (target cur : ℤ) (d : D) :
    c.faltas (c.device.after d (stepRequests "R".toList target cur)) = c.faltas d := by
  refine Device.after_unchanged c.device c.faltas (fun request hrequest e => ?_) d
  obtain ⟨valor, rfl⟩ := mem_stepRequests hrequest
  exact c.refusals e valor

/-- A synchronization that goes well brings the faults of the chronometer to those of the
program. -/
lemma synchronizeChrono_faltas {config : Configuration} {s t : DriverState D} {res : ℤ}
    (hint : IsInt (config.status.faults + config.status.touchs))
    (h : synchronizeChrono c.device c.readXml config s = some (res, t)) (hres : ¬ res < 0) :
    c.faltas t.device = config.status.faults + config.status.touchs := by
  obtain ⟨answer, status, hanswer, hstatus⟩ := synchronizeChrono_read c.device h hres
  obtain ⟨t', ht', hdevice⟩ := synchronizeChrono_eq c.device c.readXml config hanswer hstatus
  cases ht'.symm.trans h
  have hcount : status.faltas = c.faltas (c.device.respond s.device statusRequest).2 :=
    (c.status_faltas s.device answer hanswer status hstatus).trans (c.status s.device).symm
  -- the last request, if there is one, is for the elimination
  have hlast : ∀ request ∈ if config.status.eliminated ≠ status.eliminado then
      [actionRequest "E".toList "0".toList] else [],
        ∀ d, c.faltas (c.device.respond d request).2 = c.faltas d := by
    intro request hrequest d
    split_ifs at hrequest
    · rw [List.mem_singleton.mp hrequest]
      exact c.eliminated d _
    · cases hrequest
  rw [hdevice, Device.after_cons, syncRequests, Device.after_append,
    Device.after_unchanged c.device c.faltas hlast]
  split_ifs
  · exact (c.totalRefusals _ _).trans (c.total _ _ hint)
  · rw [Device.after_append, after_refusals, hcount, after_faltas c hint]

/-- After the handler of `fault`, either the counts agree or the lock is lost. -/
lemma writeCounters_faltas {config : Configuration} {s t : DriverState D} {res : ℤ}
    (hint : IsInt (config.status.faults + config.status.touchs))
    (h : writeCounters c.device c.readXml config s = some (res, t)) :
    c.faltas t.device = config.status.faults + config.status.touchs ∧ t.sem = s.sem + 1 ∨
      t.sem = s.sem := by
  obtain ⟨⟨res₁, s₁⟩, hsync, h⟩ := Option.bind_eq_some_iff.mp h
  have hsem := (synchronizeChrono_spec c.device c.readXml hsync).1
  dsimp only at h
  split at h
  · cases h
    exact .inr hsem
  · next hok =>
    have hcount := synchronizeChrono_faltas c hint hsync hok
    have hstate := writeRequest_state c.device s₁ [] none
    have ht : t = (writeRequest c.device s₁ [] none).2 :=
      (congrArg Prod.snd (Option.some.inj h)).symm
    rw [ht, hstate]
    exact .inl ⟨(c.idle s₁.device).trans hcount, congrArg (· + 1) hsem⟩

/-- `fault` from another source, with the lock free. -/
lemma moduleWrite_fault {config : Configuration} {source : CString} {args : Tokens}
    {s t : DriverState D} {res : ℤ} (hsem : s.sem = 1)
    (hint : IsInt (config.status.faults + config.status.touchs))
    (h : moduleWrite c.device c.readXml config (source :: Command.fault.cmd :: args) s =
      some (.returned (res, t))) :
    c.faltas t.device = config.status.faults + config.status.touchs ∧ t.sem = 1 ∨ t.sem = 0 := by
  obtain ⟨⟨res₁, t₁⟩, hbody, hresult⟩ := semWait_of_free hsem h
  cases hresult
  obtain ⟨cmd, hcmd, hbody⟩ := Option.bind_eq_some_iff.mp hbody
  obtain rfl : Command.fault.cmd = cmd := Option.some.inj hcmd
  rw [findCommand_toLower_cmd] at hbody
  exact writeCounters_faltas c (s := { s with sem := 0 }) hint hbody

/-! ## The two halves of a line -/

/-- A line `fault +` of another source than the chronometer. -/
def isFaultPlus (datagram : List Char) : Bool :=
  match (receive datagram).bind parseLine with
  | some (.command .fault tokens) =>
    countArg tokens tokens.length = some .inc && !fromSource scNetwork tokens
  | _ => false

/-- The program between two steps: the lines that wait, the line whose first half is done, and
the number of faults main has accepted. -/
structure RaceState (D : Type) where
  config : Configuration
  driver : DriverState D
  queue : List (List Char)
  handling : Option (Command × Tokens)
  accepted : ℕ

/-- What the handler of the network manager does with a line, if there is one. -/
def networkCall (command : Command) (tokens : Tokens) : Option SerialCall :=
  (netMgrEntries command).map fun f => f tokens tokens.length

/-- The steps.  The network thread waits for the answer to a line before it polls again, but goes
on if it cannot get it: a poll may come at any time. -/
inductive RaceInput
  | arrive (datagram : List Char)
  | poll
  /-- Main takes a line and runs the handler of `main_mgr`. -/
  | front
  /-- Main runs the handler of the network manager. -/
  | handler

def raceArrive (s : RaceState D) (datagram : List Char) : Option (RaceState D) :=
  if isFaultPlus datagram then some { s with queue := s.queue ++ [datagram] } else none

def racePoll (s : RaceState D) : Option (RaceState D) := do
  let (res, buffer, driver) ←
    (← moduleRead c.device c.readXml s.config pollLength s.driver).result
  let line := if res < 0 then none else networkLine (buffer.getD [])
  return { s with driver, queue := s.queue ++ line.toList }

def raceFront (s : RaceState D) : Option (RaceState D) :=
  match s.handling, s.queue with
  | none, datagram :: queue => do
    let buffer ← receive datagram
    match ← mainFront s.config buffer with
    | .answered _ config => return { s with config, queue }
    | .dispatch command tokens config =>
      return { s with config, queue, handling := some (command, tokens)
                      accepted := s.accepted + if isFaultPlus datagram then 1 else 0 }
  | _, _ => none

def raceHandler (s : RaceState D) : Option (RaceState D) := do
  let (command, tokens) ← s.handling
  match networkCall command tokens with
  | some (.moduleWrite tokens _) => do
    let (_, driver) ← (← moduleWrite c.device c.readXml s.config tokens s.driver).result
    return { s with driver, handling := none }
  | _ => return { s with handling := none }

def raceStep (s : RaceState D) : RaceInput → Option (RaceState D)
  | .arrive datagram => raceArrive s datagram
  | .poll => racePoll c s
  | .front => raceFront s
  | .handler => raceHandler c s

/-- The program with nothing to do. -/
def RaceState.start (config : Configuration) (cwData : CanometrowebData)
    (cwConfig : CanometrowebConfig) (d : D) : RaceState D :=
  ⟨config, ⟨cwData, cwConfig, 1, d⟩, [], none, 0⟩

/-! ## The lines -/

lemma isFaultPlus_spec {datagram : List Char} (h : isFaultPlus datagram = true) :
    ∃ buffer source args, receive datagram = some buffer ∧ source ≠ scNetwork ∧
      parseLine buffer = some (.command .fault (source :: Command.fault.cmd :: args)) ∧
      countArg (source :: Command.fault.cmd :: args)
        (source :: Command.fault.cmd :: args).length = some .inc := by
  unfold isFaultPlus at h
  split at h
  · next tokens hline =>
    obtain ⟨buffer, hreceive, hline⟩ := Option.bind_eq_some_iff.mp hline
    obtain ⟨source, args, rfl⟩ := parseLine_command hline
    rw [Bool.and_eq_true, decide_eq_true_eq, Bool.not_eq_true'] at h
    refine ⟨buffer, source, args, hreceive, ?_, hline, h.1⟩
    rintro rfl
    exact absurd h.2 (by simp [fromSource])
  · cases h

/-- The first half of a `fault +`: one fault more, if the clamps at zero do not cut. -/
lemma mainFront_faultPlus {config : Configuration} {buffer source : CString} {args : Tokens}
    (hline : parseLine buffer = some (.command .fault (source :: Command.fault.cmd :: args)))
    (harg : countArg (source :: Command.fault.cmd :: args)
      (source :: Command.fault.cmd :: args).length = some .inc)
    (hfaults : -1 ≤ config.status.faults) (htouchs : 0 ≤ config.status.touchs) :
    ∃ config', mainFront config buffer =
        some (.dispatch .fault (source :: Command.fault.cmd :: args) config') ∧
      config'.status.faults + config'.status.touchs =
        config.status.faults + config.status.touchs + 1 := by
  refine ⟨{ config with status := { config.status with
    faults := max 0 (config.status.faults + 1), touchs := max 0 config.status.touchs } }, ?_, ?_⟩
  · rw [mainFront_command hline, mainMgrEntries, mainMgrFault, harg]
    rfl
  · dsimp only
    omega

/-! ## Counting -/

/-- The chronometer has counted the faults accepted, or main is between the two halves of a fault
and has counted it. -/
structure RaceState.Counted (initial : ℤ) (s : RaceState D) : Prop where
  queue : ∀ datagram ∈ s.queue, isFaultPlus datagram = true ∨ OwnLine scNetwork datagram
  counted : ((∀ line ∈ s.handling, fromSource scNetwork line.2 = true) ∧
      c.faltas s.driver.device = initial + s.accepted) ∨
    ∃ source args, s.handling = some (.fault, source :: Command.fault.cmd :: args) ∧
      source ≠ scNetwork ∧ IsInt (s.config.status.faults + s.config.status.touchs) ∧
      s.config.status.faults + s.config.status.touchs = initial + s.accepted

/-- The lock is held by nobody, and then the faults are counted; or it is lost. -/
def RaceState.CountedOrLost (initial : ℤ) (s : RaceState D) : Prop :=
  s.driver.sem = 1 ∧ s.Counted c initial ∨ s.driver.sem = 0

/-- A fault that main takes finds the counts equal; it does not go below zero, and the sum is an
`int`. -/
def RaceInput.Fresh (s : RaceState D) : RaceInput → Prop
  | .front => ∀ datagram ∈ s.queue.head?, isFaultPlus datagram = true →
    s.config.status.faults + s.config.status.touchs = c.faltas s.driver.device ∧
      -1 ≤ s.config.status.faults ∧ 0 ≤ s.config.status.touchs ∧
      IsInt (s.config.status.faults + s.config.status.touchs + 1)
  | _ => True

lemma counted_poll {initial : ℤ} {s t : RaceState D} (hsem : s.driver.sem = 1)
    (hs : s.Counted c initial) (h : racePoll c s = some t) :
    t.CountedOrLost c initial := by
  obtain ⟨outcome, houtcome, h⟩ := Option.bind_eq_some_iff.mp h
  obtain ⟨⟨res, buffer, driver⟩, hresult, h⟩ := Option.bind_eq_some_iff.mp h
  cases h
  have hne : s.driver.sem ≠ 0 := by omega
  rw [moduleRead_free c.device c.readXml s.config hne] at houtcome
  obtain ⟨status, -, rfl⟩ := Option.map_eq_some_iff.mp houtcome
  have hdriver : driver.sem = 1 ∧ c.faltas driver.device = c.faltas s.driver.device := by
    have heq : (pollResult c.device s.config s.driver status).2.2 = driver :=
      congrArg (fun r => r.2.2) (Option.some.inj hresult)
    rcases status with - | data <;> rw [← heq] <;> exact ⟨hsem, c.status s.driver.device⟩
  refine .inl ⟨hdriver.1, ⟨fun datagram hdatagram => ?_, ?_⟩⟩
  · rcases List.mem_append.mp hdatagram with hold | hnew
    · exact hs.queue datagram hold
    · right
      have hline := Option.mem_toList.mp hnew
      split_ifs at hline
      exact ownLine_driverLine (by decide) (by decide) hline
  · rcases hs.counted with ⟨hown, hcount⟩ | hpending
    · exact .inl ⟨hown, hdriver.2.trans hcount⟩
    · exact .inr hpending

lemma counted_arrive {initial : ℤ} {s t : RaceState D} {datagram : List Char}
    (hs : s.Counted c initial) (h : raceArrive s datagram = some t) :
    t.driver = s.driver ∧ t.Counted c initial := by
  unfold raceArrive at h
  split_ifs at h with hfault
  cases h
  refine ⟨rfl, ⟨fun d hd => ?_, hs.counted⟩⟩
  rcases List.mem_append.mp hd with hold | hnew
  · exact hs.queue d hold
  · rw [List.mem_singleton.mp hnew]
    exact .inl hfault

lemma counted_front {initial : ℤ} {s t : RaceState D} (hs : s.Counted c initial)
    (hfresh : RaceInput.front.Fresh c s) (h : raceFront s = some t) :
    t.driver = s.driver ∧ t.Counted c initial := by
  rcases hhandling : s.handling with - | line
  · rcases hqueue : s.queue with - | ⟨datagram, queue⟩
    · simp only [raceFront, hhandling, hqueue] at h
      cases h
    · simp only [raceFront, hhandling, hqueue] at h
      obtain ⟨buffer, hreceive, h⟩ := Option.bind_eq_some_iff.mp h
      obtain ⟨front, hfront, h⟩ := Option.bind_eq_some_iff.mp h
      have hcounted : c.faltas s.driver.device = initial + s.accepted := by
        rcases hs.counted with ⟨-, hcount⟩ | ⟨source, args, hsome, -⟩
        · exact hcount
        · rw [hhandling] at hsome
          cases hsome
      have hrest : ∀ d ∈ queue, isFaultPlus d = true ∨ OwnLine scNetwork d :=
        fun d hd => hs.queue d (by rw [hqueue]; exact List.mem_cons_of_mem _ hd)
      by_cases hplus : isFaultPlus datagram = true
      · obtain ⟨buffer', source, args, hreceive', hsource, hline, harg⟩ := isFaultPlus_spec hplus
        cases hreceive.symm.trans hreceive'
        obtain ⟨hequal, hfaults, htouchs, hint⟩ :=
          hfresh datagram (by rw [hqueue]; rfl) hplus
        obtain ⟨config', hfront', htotal⟩ := mainFront_faultPlus hline harg hfaults htouchs
        cases hfront.symm.trans hfront'
        cases h
        refine ⟨rfl, ⟨hrest, .inr ⟨source, args, rfl, hsource, ?_, ?_⟩⟩⟩
        · rw [htotal]
          exact hint
        · rw [htotal, hequal, hcounted, if_pos hplus]
          push_cast
          omega
      · have hown : OwnLine scNetwork datagram :=
          (hs.queue datagram (by rw [hqueue]; exact List.mem_cons_self)).resolve_left hplus
        rcases front with ⟨response, config⟩ | ⟨command, tokens, config⟩
        · cases h
          refine ⟨rfl, ⟨hrest, .inl ⟨fun line hline => ?_, hcounted⟩⟩⟩
          cases hline
        · cases h
          refine ⟨rfl, ⟨hrest, .inl ⟨fun line hline => ?_, ?_⟩⟩⟩
          · obtain rfl := Option.mem_some_iff.mp hline
            exact hown buffer command tokens hreceive (mainFront_dispatch hfront).1
          · rw [if_neg hplus]
            exact hcounted
  · simp only [raceFront, hhandling] at h
    cases h

lemma counted_handler {initial : ℤ} {s t : RaceState D} (hsem : s.driver.sem = 1)
    (hs : s.Counted c initial) (h : raceHandler c s = some t) :
    t.CountedOrLost c initial := by
  obtain ⟨⟨command, tokens⟩, hhandling, h⟩ := Option.bind_eq_some_iff.mp h
  have hnone : ∀ line ∈ (none : Option (Command × Tokens)), fromSource scNetwork line.2 = true :=
    fun line hline => by cases hline
  rcases hs.counted with ⟨hown, hcount⟩ | ⟨source, args, hsome, hsource, hint, htotal⟩
  · -- a line of the chronometer does not go back to it
    have hcall : ∀ call ∈ networkCall command tokens, call = .returns 0 := by
      intro call hcall
      obtain ⟨f, hf, rfl⟩ := Option.map_eq_some_iff.mp hcall
      exact netMgrEntries_own hf (hown (command, tokens) hhandling) _
    rcases hnetwork : networkCall command tokens with - | call
    · simp only [hnetwork] at h
      cases h
      exact .inl ⟨hsem, ⟨hs.queue, .inl ⟨hnone, hcount⟩⟩⟩
    · obtain rfl := hcall call hnetwork
      simp only [hnetwork] at h
      cases h
      exact .inl ⟨hsem, ⟨hs.queue, .inl ⟨hnone, hcount⟩⟩⟩
  · cases hhandling.symm.trans hsome
    obtain ⟨args', ntokens', hdefault⟩ := netMgrDefault_eq hsource "+".toList Command.fault.cmd args
      (source :: Command.fault.cmd :: args).length
    have hnetwork : networkCall .fault (source :: Command.fault.cmd :: args) =
        some (.moduleWrite (source :: Command.fault.cmd :: args') ntokens') := congrArg some hdefault
    simp only [hnetwork] at h
    obtain ⟨outcome, houtcome, h⟩ := Option.bind_eq_some_iff.mp h
    obtain ⟨⟨res, driver⟩, hresult, h⟩ := Option.bind_eq_some_iff.mp h
    cases h
    rcases outcome with ⟨res', driver'⟩ | -
    · cases hresult
      rcases moduleWrite_fault c hsem hint houtcome with ⟨hcount, hfree⟩ | hlost
      · exact .inl ⟨hfree, ⟨hs.queue, .inl ⟨hnone, hcount.trans htotal⟩⟩⟩
      · exact .inr hlost
    · cases hresult

lemma raceFront_driver {s t : RaceState D} (h : raceFront s = some t) : t.driver = s.driver := by
  unfold raceFront at h
  split at h
  · obtain ⟨buffer, -, h⟩ := Option.bind_eq_some_iff.mp h
    obtain ⟨front, -, h⟩ := Option.bind_eq_some_iff.mp h
    rcases front <;> cases h <;> rfl
  · cases h

/-- A lost lock stays lost. -/
lemma lost_step {s t : RaceState D} {input : RaceInput} (hsem : s.driver.sem = 0)
    (h : raceStep c s input = some t) : t.driver.sem = 0 := by
  rcases input with datagram | - | - | -
  · rw [raceStep, raceArrive] at h
    split_ifs at h
    cases h
    exact hsem
  · rw [raceStep, racePoll, moduleRead, semWait, if_pos hsem] at h
    cases h
  · rw [raceFront_driver h]
    exact hsem
  · obtain ⟨⟨command, tokens⟩, -, h⟩ := Option.bind_eq_some_iff.mp h
    rcases hnetwork : networkCall command tokens with - | (res | ⟨tokens', ntokens⟩) <;>
      simp only [hnetwork] at h
    · cases h
      exact hsem
    · cases h
      exact hsem
    · rw [moduleWrite, semWait, if_pos hsem] at h
      cases h

lemma countedOrLost_step {initial : ℤ} {s t : RaceState D} {input : RaceInput}
    (hs : s.CountedOrLost c initial) (hfresh : input.Fresh c s)
    (h : raceStep c s input = some t) : t.CountedOrLost c initial := by
  rcases hs with ⟨hsem, hs⟩ | hlost
  · rcases input with datagram | - | - | -
    · obtain ⟨hdriver, ht⟩ := counted_arrive c hs h
      exact .inl ⟨hdriver ▸ hsem, ht⟩
    · exact counted_poll c hsem hs h
    · obtain ⟨hdriver, ht⟩ := counted_front c hs hfresh h
      exact .inl ⟨hdriver ▸ hsem, ht⟩
    · exact counted_handler c hsem hs h
  · exact .inr (lost_step c hlost h)

/-- A poll would read the counters, and find no difference. -/
def SeesNoDifference (s : RaceState D) : Prop :=
  s.driver.sem ≠ 0 ∧ ∃ data, polledStatus c.device c.readXml s.driver = some (some data) ∧
    ¬ countersDiffer s.config data

/-- Once no line waits, main is idle and a poll sees no difference, every fault accepted has been
counted. -/
def FaultsKept (initial : ℤ) (s : RaceState D) : Prop :=
  s.queue = [] → s.handling = none → SeesNoDifference c s →
    s.config.status.faults + s.config.status.touchs = initial + s.accepted

lemma faultsKept_of_counted {initial : ℤ} {s : RaceState D} (hs : s.CountedOrLost c initial) :
    FaultsKept c initial s := by
  rintro - hidle ⟨hsem, data, hdata, hsame⟩
  rcases hs with ⟨-, hs⟩ | hlost
  · rcases hs.counted with ⟨-, hcount⟩ | ⟨source, args, hpending, -⟩
    · have htold : data.faltas = c.faltas s.driver.device := by
        unfold polledStatus at hdata
        simp only [sendrec_status] at hdata
        rcases hanswer : (c.device.respond s.driver.device statusRequest).1 with - | answer
        · rw [hanswer] at hdata
          cases hdata
        · rw [hanswer] at hdata
          exact c.status_faltas s.driver.device answer hanswer data hdata
      rw [← hcount, ← htold]
      by_contra hne
      exact hsame (.inl fun heq => hne heq.symm)
    · rw [hidle] at hpending
      cases hpending
  · exact absurd hlost hsem

/-- **Faults against polls.** For every chronometer that counts, and every interleaving of polls,
of lines `fault +` that arrive and of the two halves of the lines that main handles, from equal
counts: if every fault that main takes finds the counts equal, then, whenever no line waits, main
is idle and a poll sees no difference, the faults and touchs of the program are those of the
beginning and the faults accepted. -/
theorem faults_kept {config : Configuration} (cwData : CanometrowebData)
    (cwConfig : CanometrowebConfig) {d : D}
    (hequal : c.faltas d = config.status.faults + config.status.touchs) {inputs : List RaceInput}
    (hfresh : Along (raceStep c) (fun s input => input.Fresh c s)
      (.start config cwData cwConfig d) inputs) :
    Always (raceStep c) (FaultsKept c (config.status.faults + config.status.touchs))
      (.start config cwData cwConfig d) inputs := by
  have hinit : (RaceState.start config cwData cwConfig d).CountedOrLost c
      (config.status.faults + config.status.touchs) := by
    have hcount : c.faltas d = config.status.faults + config.status.touchs + ((0 : ℕ) : ℤ) := by
      rw [Nat.cast_zero, add_zero, hequal]
    have hnone : ∀ line ∈ (none : Option (Command × Tokens)),
        fromSource scNetwork line.2 = true := fun line hline => by cases hline
    have hempty : ∀ datagram ∈ ([] : List (List Char)),
        isFaultPlus datagram = true ∨ OwnLine scNetwork datagram := fun datagram hd => by cases hd
    exact .inl ⟨rfl, ⟨hempty, .inl ⟨hnone, hcount⟩⟩⟩
  have hall := always_of_along (fun s input t hs hi h => countedOrLost_step c hs hi h) hinit hfresh
  exact hall.imp fun s hs => faultsKept_of_counted c hs

/-! ## A counter -/

/-- The status page of a chronometer that only counts faults. -/
def countPage (n : ℤ) : CString :=
  "<xml><faults>".toList ++ (printInt n ++ "</faults></xml>".toList)

lemma countPage_eq (n : ℤ) : countPage n = fieldsPage [("faults".toList, n)] := by
  have hopen : "<xml><faults>".toList = "<xml>".toList ++ '<' :: ("faults".toList ++ ['>']) := by
    decide
  have hclose : "</faults></xml>".toList =
      '<' :: ('/' :: "faults".toList ++ ">".toList) ++ "</xml>".toList := by decide
  show "<xml><faults>".toList ++ (printInt n ++ "</faults></xml>".toList) =
    "<xml>".toList ++ ([("faults".toList, n)].flatMap fieldText ++ "</xml>".toList)
  rw [hopen, hclose]
  simp [fieldText]

lemma flatXml_countPage (n : ℤ) :
    flatXml (countPage n) = some [("faults".toList, some (printInt n))] := by
  have hnames : ∀ field ∈ [("faults".toList, n)], plainName field.1 = true := by
    simp only [List.forall_mem_cons, List.not_mem_nil, false_imp_iff, implies_true, and_true]
    decide
  rw [countPage_eq, flatXml_fieldsPage hnames, List.map_singleton]

lemma countPage_read {n : ℤ} (hn : IsInt n) :
    parseStatusXml flatXml .zero (countPage n) =
      some (some { CanometrowebData.zero with faltas := n }) := by
  have hfield : statusFields.lookup (strhash "faults".toList) = some .faltas := by decide
  rw [parseStatusXml, flatXml_countPage]
  simp only [List.foldlM_cons, List.foldlM_nil, parseStatusElement, hfield, Option.map_some,
    atoi_printInt hn.1 hn.2]
  rfl

/-- What an order does to a count: `F` moves it by one, `TF` sets it. -/
def countAction (postdata : CString) (n : ℤ) : ℤ :=
  match postdata.drop 5 with
  | 'F' :: rest =>
    if rest = "&valor=1".toList then n + 1 else if rest = "&valor=-1".toList then n - 1 else n
  | 'T' :: 'F' :: rest => textInt (rest.drop 7)
  | _ => n

/-- A chronometer that only counts faults, in an `int`. -/
def countDevice : Device ℤ :=
  ⟨fun n request =>
    (some (if request = statusRequest then countPage (toInt32 n) else []),
      if request.page = "canometro_accion".toList then countAction request.postdata n else n)⟩

lemma toInt32_add_one {n : ℤ} (h : IsInt (toInt32 n + 1)) : toInt32 (n + 1) = toInt32 n + 1 := by
  simp only [IsInt, toInt32_def] at *
  split_ifs at * <;> omega

lemma toInt32_sub_one {n : ℤ} (h : IsInt (toInt32 n - 1)) : toInt32 (n - 1) = toInt32 n - 1 := by
  simp only [IsInt, toInt32_def] at *
  split_ifs at * <;> omega

lemma countDevice_total (n : ℤ) {m : ℤ} (hm : IsInt m) :
    (countDevice.respond n (actionRequest "TF".toList (printInt m))).2 = m := by
  have hlength := hm.length_printInt
  have hnumber : (printInt m).take 240 = printInt m := List.take_of_length_le (by omega)
  show textInt ((printInt m).take 240) = m
  rw [hnumber]
  have h := textInt_printInt_append m endsNumber_nil
  rwa [List.append_nil] at h

/-- It counts. -/
def countChronometer : CountingChronometer ℤ where
  device := countDevice
  readXml := flatXml
  faltas := toInt32
  isInt n := toInt32_bounds n
  status _ := rfl
  status_faltas n answer hanswer data hdata := by
    have hpage : (countDevice.respond n statusRequest).1 = some (countPage (toInt32 n)) := rfl
    rw [hpage] at hanswer
    obtain rfl := Option.mem_some_iff.mp hanswer
    cases (countPage_read (toInt32_bounds n)).symm.trans hdata
    rfl
  idle _ := rfl
  more n hn := by
    show toInt32 (n + 1) = toInt32 n + 1
    exact toInt32_add_one hn
  less n hn := by
    show toInt32 (n - 1) = toInt32 n - 1
    exact toInt32_sub_one hn
  total n m hm := by
    rw [countDevice_total n hm]
    exact toInt32_eq_self hm.1 hm.2
  refusals _ _ := rfl
  totalRefusals _ _ := rfl
  eliminated _ _ := rfl

/-- The program with this chronometer, and no faults. -/
def countStart : RaceState ℤ := .start defaultOptions .zero .zero 0

/-- A fault from AgilityContest. -/
def faultLine : List Char := "ac_server fault +".toList

/-- A fault, with a poll after it. -/
theorem faults_kept_count :
    Always (raceStep countChronometer) (FaultsKept countChronometer 0) countStart
      [.arrive faultLine, .front, .handler, .poll] := by
  have hfresh : Along (raceStep countChronometer)
      (fun s input => input.Fresh countChronometer s) countStart
      [.arrive faultLine, .front, .handler, .poll] := by
    rintro s hs
    have harrive : raceArrive countStart faultLine =
        some { countStart with queue := [faultLine] } := rfl
    cases harrive.symm.trans hs
    refine ⟨trivial, fun t _ => ⟨fun datagram _ _ => ⟨rfl, by decide, by decide, by decide⟩, ?_⟩⟩
    exact fun u _ => ⟨trivial, fun v _ => ⟨trivial, trivial⟩⟩
  exact faults_kept countChronometer .zero .zero (by decide) hfresh

/-- A poll between the two halves of a fault sends the count of before; it is carried out after
the fault, and the next fault is lost. -/
theorem fault_lost :
    ¬ ∀ inputs, Always (raceStep countChronometer) (FaultsKept countChronometer 0) countStart
      inputs := by
  intro h
  let inputs : List RaceInput :=
    [.arrive faultLine, .front, .poll, .handler, .front, .handler,
      .arrive faultLine, .front, .handler]
  have hrun : (run (raceStep countChronometer) countStart inputs).map (fun s =>
      (s.queue, s.handling.isNone, s.accepted, s.config.status, s.driver.sem, s.driver.device)) =
        some ([], true, 2, { defaultOptions.status with faults := 1 }, 1, 1) := by
    decide +kernel
  obtain ⟨s, hs, hend⟩ := Option.map_eq_some_iff.mp hrun
  simp only [Prod.mk.injEq] at hend
  obtain ⟨hqueue, hhandling, haccepted, hstatus, hsem, hdevice⟩ := hend
  have hsees : SeesNoDifference countChronometer s := by
    refine ⟨by rw [hsem]; decide, { CanometrowebData.zero with faltas := 1 }, ?_, ?_⟩
    · have hpage : parseStatusXml flatXml .zero (countPage (toInt32 s.driver.device)) =
          some (some { CanometrowebData.zero with faltas := 1 }) := by
        rw [hdevice]
        exact countPage_read (by decide)
      exact hpage
    · rw [countersDiffer, hstatus]
      decide
  have hkept := (h inputs).of_run hs hqueue (Option.isNone_iff_eq_none.mp hhandling) hsees
  rw [hstatus, haccepted] at hkept
  exact absurd hkept (by decide)

end SerialChrono
