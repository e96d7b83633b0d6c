import SerialChrono.Canometroweb.Polling

/-!
# Starting and stopping by hand

The chronometer has one request to start it and to stop it: `startstop` turns its running flag
over.  The driver therefore looks at the flag first, but at the one it has stored, which only
polls refresh.  `startstop_safe_iff` says when this goes wrong: exactly when an order that would
send the request comes after another one has sent it and no poll has seen the effect yet.
-/

namespace SerialChrono

open CText PartialRun

variable {D : Type}

/-! ## A chronometer that is toggled -/

/-- The flag in the status. -/
def runningFlag (running : Bool) : ℤ := if running then 1 else 0

/-- The request that turns the running flag over. -/
def startstopRequest : Request := ⟨"startstop".toList, [], true⟩

/-- A chronometer whose running flag only `startstop` changes, and whose status tells it. -/
structure ToggledChronometer (D : Type) where
  device : Device D
  readXml : XmlReader
  running : D → Bool
  toggle : ∀ d, running (device.respond d startstopRequest).2 = !running d
  idle : ∀ d, running (device.respond d idleRequest).2 = running d
  status : ∀ d, running (device.respond d statusRequest).2 = running d
  status_running : ∀ d, ∀ answer ∈ (device.respond d statusRequest).1, ∀ data,
    parseStatusXml readXml .zero answer = some (some data) → data.running = runningFlag (running d)

/-- The chronometer with a record of its requests, each with the state it found. -/
def Device.recorded (dev : Device D) : Device (D × List (Request × D)) :=
  ⟨fun d request =>
    let (answer, after) := dev.respond d.1 request
    (answer, after, d.2 ++ [(request, d.1)])⟩

/-! ## Runs -/

/-- A poll, or an order that main passes to the driver. -/
inductive ManualCall
  | poll (config : Configuration)
  | start (config : Configuration) (source : CString) (rest : Tokens)
  | stop (config : Configuration) (source : CString) (rest : Tokens)

/-- The driver, with the orders that have sent a `startstop` and the states it found. -/
structure ManualRun (D : Type) where
  driver : DriverState (D × List (Request × D))
  sent : List (Command × D)
  /-- A `startstop` has been sent, and no status has been read since. -/
  unseen : Bool

/-- The driver after `module_open` has read the status. -/
def ManualRun.start (c : ToggledChronometer D) (cwData : CanometrowebData)
    (cwConfig : CanometrowebConfig) (d : D) : ManualRun D :=
  ⟨⟨{ cwData with running := runningFlag (c.running d) }, cwConfig, 1, d, []⟩, [], false⟩

/-- The states in which a call has found the chronometer with a `startstop`. -/
def toggledStates (record : List (Request × D)) : List D :=
  (record.filter fun entry => entry.1.page = "startstop".toList).map Prod.snd

/-- An order of the main thread. -/
def ManualRun.order (c : ToggledChronometer D) (r : ManualRun D) (order : Command)
    (config : Configuration) (source : CString) (rest : Tokens) : Option (ManualRun D) := do
  let (_, driver) ← (← moduleWrite c.device.recorded c.readXml config
    (source :: order.cmd :: rest) { r.driver with device := (r.driver.device.1, []) }).result
  let states := toggledStates driver.device.2
  return ⟨driver, r.sent ++ states.map fun d => (order, d), r.unseen || !states.isEmpty⟩

def manualStep (c : ToggledChronometer D) (r : ManualRun D) : ManualCall → Option (ManualRun D)
  | .poll config => do
    let seen ← polledStatus c.device.recorded c.readXml r.driver
    let (_, _, driver) ←
      (← moduleRead c.device.recorded c.readXml config pollLength r.driver).result
    return ⟨driver, r.sent, r.unseen && seen.isNone⟩
  | .start config source rest => r.order c .start config source rest
  | .stop config source rest => r.order c .stop config source rest

/-! ## One call -/

/-- An order to start or to stop sends a `startstop`, given the flag that is stored. -/
def sendsToggle (order : Command) (running : ℤ) : Prop :=
  order = .start ∧ running = 0 ∨ order = .stop ∧ running = 1

instance (order : Command) (running : ℤ) : Decidable (sendsToggle order running) :=
  inferInstanceAs (Decidable (_ ∨ _))

/-- The request an order sends. -/
def orderRequest (order : Command) (running : ℤ) : Request :=
  if sendsToggle order running then startstopRequest else idleRequest

@[simp] lemma sendsToggle_start (running : ℤ) : sendsToggle .start running ↔ running = 0 := by
  simp [sendsToggle]

@[simp] lemma sendsToggle_stop (running : ℤ) : sendsToggle .stop running ↔ running = 1 := by
  simp [sendsToggle]

/-- The page an order asks for. -/
def orderPage (order : Command) (running : ℤ) : CString :=
  if sendsToggle order running then "startstop".toList else []

lemma orderRequest_eq (order : Command) (running : ℤ) :
    orderRequest order running = ⟨orderPage order running, [], true⟩ := by
  unfold orderRequest orderPage
  split_ifs <;> rfl

/-- `start` and `stop` end in one request, whose page depends on the stored flag. -/
lemma moduleWrite_order_body (dev : Device D) (readXml : XmlReader) (config : Configuration)
    (source : CString) (rest : Tokens) {s : DriverState D} (hs : s.sem ≠ 0) {order : Command}
    (horder : order = .start ∨ order = .stop) :
    moduleWrite dev readXml config (source :: order.cmd :: rest) s =
      some (.returned (writeRequest dev { s with sem := s.sem - 1 }
        (orderPage order s.cwData.running) none)) := by
  have hcmd : (source :: order.cmd :: rest)[1]? = some order.cmd := rfl
  unfold moduleWrite semWait orderPage
  rw [if_neg hs]
  simp only [hcmd, Option.bind_eq_bind, Option.bind_some, toLower_cmd, findCommand_cmd]
  rcases horder with rfl | rfl
  · simp only [sendsToggle_start, Option.pure_def, Option.map_some]
  · simp only [sendsToggle_stop, Option.pure_def, Option.map_some]

lemma moduleWrite_order (dev : Device D) (readXml : XmlReader) (config : Configuration)
    (source : CString) (rest : Tokens) {s : DriverState D} (hs : s.sem ≠ 0) {order : Command}
    (horder : order = .start ∨ order = .stop) :
    ∃ res, moduleWrite dev readXml config (source :: order.cmd :: rest) s =
      some (.returned (res, { s with
        device := (dev.respond s.device (orderRequest order s.cwData.running)).2 })) := by
  have hsem : s.sem - 1 + 1 = s.sem := Nat.sub_add_cancel (Nat.one_le_iff_ne_zero.mpr hs)
  have hstate := writeRequest_state dev { s with sem := s.sem - 1 }
    (orderPage order s.cwData.running) none
  rcases hresult : writeRequest dev { s with sem := s.sem - 1 }
    (orderPage order s.cwData.running) none with ⟨res, t⟩
  refine ⟨res, ?_⟩
  rw [moduleWrite_order_body dev readXml config source rest hs horder, hresult, orderRequest_eq]
  rw [hresult] at hstate
  rw [show t = _ from hstate]
  simp only [semPost, sendrec, hsem, List.take_nil, Option.isNone_none]

variable (c : ToggledChronometer D)

/-- The run after an order that has sent its request. -/
def ManualRun.afterOrder (r : ManualRun D) (order : Command) : ManualRun D :=
  let d := r.driver.device.1
  let request := orderRequest order r.driver.cwData.running
  let driver := { r.driver with device := ((c.device.respond d request).2, [(request, d)]) }
  if sendsToggle order r.driver.cwData.running then ⟨driver, r.sent ++ [(order, d)], true⟩
  else ⟨driver, r.sent, r.unseen⟩

lemma toggledStates_startstop (d : D) : toggledStates [(startstopRequest, d)] = [d] := rfl

lemma toggledStates_idle (d : D) : toggledStates [(idleRequest, d)] = [] := rfl

lemma order_eq {r : ManualRun D} (hr : r.driver.sem ≠ 0) {order : Command}
    (horder : order = .start ∨ order = .stop) (config : Configuration) (source : CString)
    (rest : Tokens) : r.order c order config source rest = some (r.afterOrder c order) := by
  obtain ⟨res, hwrite⟩ := moduleWrite_order c.device.recorded c.readXml config source rest
    (s := { r.driver with device := (r.driver.device.1, []) }) hr horder
  unfold ManualRun.order ManualRun.afterOrder
  rw [hwrite]
  simp only [Option.bind_eq_bind, Option.bind_some, Outcome.result, Option.pure_def,
    Device.recorded, List.nil_append]
  by_cases hsends : sendsToggle order r.driver.cwData.running
  · simp only [orderRequest, if_pos hsends, toggledStates_startstop, List.map_singleton,
      List.isEmpty_cons, Bool.not_false, Bool.or_true]
  · simp only [orderRequest, if_neg hsends, toggledStates_idle, List.map_nil, List.append_nil,
      List.isEmpty_nil, Bool.not_true, Bool.or_false]

/-! ## The stored flag -/

/-- The stored flag is that of the chronometer, unless a `startstop` has not been seen yet. -/
structure ManualRun.Tracked (r : ManualRun D) : Prop where
  sem : r.driver.sem = 1
  running : r.driver.cwData.running = runningFlag (c.running r.driver.device.1 ^^ r.unseen)

/-- A start has found the chronometer stopped, and a stop has found it running. -/
def ManualRun.Safe (r : ManualRun D) : Prop :=
  ∀ entry ∈ r.sent, (entry.1 = .start → c.running entry.2 = false) ∧
    (entry.1 = .stop → c.running entry.2 = true)

lemma runningFlag_eq_zero (b : Bool) : runningFlag b = 0 ↔ b = false := by
  cases b <;> decide

lemma runningFlag_eq_one (b : Bool) : runningFlag b = 1 ↔ b = true := by
  cases b <;> decide

/-- The status read by a poll tells the flag. -/
lemma running_of_polled {s : DriverState (D × List (Request × D))} {data : CanometrowebData}
    (h : polledStatus c.device.recorded c.readXml s = some (some data)) :
    data.running = runningFlag (c.running s.device.1) := by
  unfold polledStatus at h
  simp only [sendrec_status, Device.recorded] at h
  rcases hanswer : (c.device.respond s.device.1 statusRequest).1 with - | answer
  · rw [hanswer] at h
    cases h
  · rw [hanswer] at h
    exact c.status_running s.device.1 answer hanswer data h

/-- A poll keeps the record of the orders, and the stored flag right. -/
lemma tracked_poll {r t : ManualRun D} (hr : r.Tracked c) {config : Configuration}
    (h : manualStep c r (.poll config) = some t) : t.sent = r.sent ∧ t.Tracked c := by
  obtain ⟨seen, hseen, h⟩ := Option.bind_eq_some_iff.mp h
  rw [moduleRead_free c.device.recorded c.readXml config (by rw [hr.sem]; decide), hseen] at h
  cases h
  refine ⟨rfl, ⟨?_, ?_⟩⟩
  · rcases seen with - | data <;> exact hr.sem
  · have hdevice := c.status r.driver.device.1
    rcases seen with - | data
    · show r.driver.cwData.running = runningFlag
        (c.running (c.device.respond r.driver.device.1 statusRequest).2 ^^ (r.unseen && true))
      rw [hdevice, Bool.and_true]
      exact hr.running
    · show (pollData config r.driver.cwData data).running = runningFlag
        (c.running (c.device.respond r.driver.device.1 statusRequest).2 ^^ (r.unseen && false))
      rw [hdevice, Bool.and_false, Bool.xor_false, (pollData_run config r.driver.cwData data).1]
      exact running_of_polled c hseen

lemma sent_afterOrder (r : ManualRun D) (order : Command) :
    (r.afterOrder c order).sent =
      r.sent ++ if sendsToggle order r.driver.cwData.running then [(order, r.driver.device.1)]
        else [] := by
  unfold ManualRun.afterOrder
  split_ifs
  · rfl
  · exact (List.append_nil _).symm

/-- The state an order has found is recorded. -/
lemma safe_afterOrder (r : ManualRun D) (order : Command) :
    (r.afterOrder c order).Safe c ↔ r.Safe c ∧
      (sendsToggle order r.driver.cwData.running →
        (order = .start → c.running r.driver.device.1 = false) ∧
          (order = .stop → c.running r.driver.device.1 = true)) := by
  unfold ManualRun.Safe
  rw [sent_afterOrder, List.forall_mem_append]
  refine and_congr_right fun _ => ?_
  split_ifs with hsends
  · rw [List.forall_mem_singleton]
    exact ⟨fun h _ => h, fun h => h hsends⟩
  · exact iff_of_true (fun _ h => nomatch h) (fun h => absurd h hsends)

/-- A request that is sent finds the chronometer as it should exactly if there is none that has
not been seen. -/
lemma found_iff {r : ManualRun D} (hr : r.Tracked c) {order : Command}
    (horder : order = .start ∨ order = .stop)
    (hsends : sendsToggle order r.driver.cwData.running) :
    ((order = .start → c.running r.driver.device.1 = false) ∧
      (order = .stop → c.running r.driver.device.1 = true)) ↔ r.unseen = false := by
  have hrunning := hr.running
  rcases horder with rfl | rfl
  · rw [sendsToggle_start] at hsends
    rw [hsends, eq_comm, runningFlag_eq_zero] at hrunning
    rcases hflag : c.running r.driver.device.1 <;> rcases hunseen : r.unseen <;> simp_all
  · rw [sendsToggle_stop] at hsends
    rw [hsends, eq_comm, runningFlag_eq_one] at hrunning
    rcases hflag : c.running r.driver.device.1 <;> rcases hunseen : r.unseen <;> simp_all

/-- An order keeps the stored flag right, unless it sends a second request. -/
lemma tracked_afterOrder {r : ManualRun D} (hr : r.Tracked c) {order : Command}
    (hunseen : sendsToggle order r.driver.cwData.running → r.unseen = false) :
    (r.afterOrder c order).Tracked c := by
  unfold ManualRun.afterOrder
  split_ifs with hsends
  · refine ⟨hr.sem, ?_⟩
    show r.driver.cwData.running = runningFlag
      (c.running (c.device.respond r.driver.device.1
        (orderRequest order r.driver.cwData.running)).2 ^^ true)
    rw [orderRequest, if_pos hsends, c.toggle, hr.running, hunseen hsends]
    rcases c.running r.driver.device.1 <;> rfl
  · refine ⟨hr.sem, ?_⟩
    show r.driver.cwData.running = runningFlag
      (c.running (c.device.respond r.driver.device.1
        (orderRequest order r.driver.cwData.running)).2 ^^ r.unseen)
    rw [orderRequest, if_neg hsends, c.idle]
    exact hr.running

/-! ## Runs of calls -/

/-- An order that would send a `startstop`, by the stored flag, comes only if the last one has
been seen. -/
def ManualCall.Waits (r : ManualRun D) : ManualCall → Prop
  | .poll _ => True
  | .start _ _ _ => r.driver.cwData.running = 0 → r.unseen = false
  | .stop _ _ _ => r.driver.cwData.running = 1 → r.unseen = false

lemma sent_grows {r t : ManualRun D} {call : ManualCall} (h : manualStep c r call = some t) :
    r.sent <+: t.sent := by
  have horder : ∀ order config source rest, r.order c order config source rest = some t →
      r.sent <+: t.sent := by
    intro order config source rest h
    obtain ⟨outcome, -, h⟩ := Option.bind_eq_some_iff.mp h
    obtain ⟨result, -, h⟩ := Option.bind_eq_some_iff.mp h
    cases h
    exact List.prefix_append _ _
  rcases call with config | ⟨config, source, rest⟩ | ⟨config, source, rest⟩
  · obtain ⟨seen, -, h⟩ := Option.bind_eq_some_iff.mp h
    obtain ⟨outcome, -, h⟩ := Option.bind_eq_some_iff.mp h
    obtain ⟨result, -, h⟩ := Option.bind_eq_some_iff.mp h
    cases h
    exact List.prefix_refl _
  · exact horder .start config source rest h
  · exact horder .stop config source rest h

lemma safe_of_step {r t : ManualRun D} {call : ManualCall} (h : manualStep c r call = some t)
    (ht : t.Safe c) : r.Safe c :=
  fun entry hentry => ht entry ((sent_grows c h).subset hentry)

/-- An order is safe, and keeps the stored flag right, exactly if it waits. -/
lemma order_step {r t : ManualRun D} (hr : r.Tracked c) (hsafe : r.Safe c) {order : Command}
    (horder : order = .start ∨ order = .stop) {config : Configuration} {source : CString}
    {rest : Tokens} (h : r.order c order config source rest = some t) :
    (t.Safe c ↔ sendsToggle order r.driver.cwData.running → r.unseen = false) ∧
      (t.Safe c → t.Tracked c) := by
  rw [order_eq c (by rw [hr.sem]; decide) horder] at h
  cases h
  have hiff : (r.afterOrder c order).Safe c ↔
      (sendsToggle order r.driver.cwData.running → r.unseen = false) := by
    rw [safe_afterOrder]
    constructor
    · exact fun h hsends => (found_iff c hr horder hsends).mp (h.2 hsends)
    · exact fun h => ⟨hsafe, fun hsends => (found_iff c hr horder hsends).mpr (h hsends)⟩
  exact ⟨hiff, fun ht => tracked_afterOrder c hr (hiff.mp ht)⟩

lemma manualStep_spec {r t : ManualRun D} {call : ManualCall} (hr : r.Tracked c)
    (hsafe : r.Safe c) (h : manualStep c r call = some t) :
    (t.Safe c ↔ call.Waits r) ∧ (t.Safe c → t.Tracked c) := by
  rcases call with config | ⟨config, source, rest⟩ | ⟨config, source, rest⟩
  · obtain ⟨hsent, htracked⟩ := tracked_poll c hr h
    refine ⟨iff_of_true ?_ trivial, fun _ => htracked⟩
    rw [ManualRun.Safe, hsent]
    exact hsafe
  · have hstep := order_step c hr hsafe (.inl rfl) h
    rw [sendsToggle_start] at hstep
    exact hstep
  · have hstep := order_step c hr hsafe (.inr rfl) h
    rw [sendsToggle_stop] at hstep
    exact hstep

/-- **Starting and stopping by hand.** For every chronometer that is toggled, and every sequence
of polls, starts and stops: every start that sends a `startstop` finds the chronometer stopped,
and every stop that sends one finds it running, if and only if no order would send one before
the last one has been seen by a poll. -/
theorem startstop_safe_iff (cwData : CanometrowebData) (cwConfig : CanometrowebConfig) (d : D)
    (calls : List ManualCall) :
    Always (manualStep c) (ManualRun.Safe c) (.start c cwData cwConfig d) calls ↔
      Along (manualStep c) (fun r call => call.Waits r) (.start c cwData cwConfig d) calls := by
  refine always_iff_along (J := fun r => r.Safe c → r.Tracked c) ?_ ?_ ?_ ?_
  · intro r call t hr h ht
    have hsafe := safe_of_step c h ht
    exact (manualStep_spec c (hr hsafe) hsafe h).2 ht
  · intro r call t hr hsafe h
    exact (manualStep_spec c (hr hsafe) hsafe h).1
  · intro _
    refine ⟨rfl, ?_⟩
    show runningFlag (c.running d) = runningFlag (c.running d ^^ false)
    rw [Bool.xor_false]
  · intro entry hentry
    cases hentry

/-- The status page of a chronometer that only has a running flag. -/
def buttonPage (running : Bool) : CString :=
  "<xml><running>".toList ++ printInt (runningFlag running) ++ "</running></xml>".toList

/-- A chronometer with a button and a running flag. -/
def buttonDevice : Device Bool :=
  ⟨fun running request =>
    (some (if request = statusRequest then buttonPage running else []),
      running ^^ request = startstopRequest)⟩

lemma buttonPage_read (running : Bool) :
    parseStatusXml flatXml .zero (buttonPage running) =
      some (some (.shows (runningFlag running) 0)) := by
  cases running <;> decide

/-- It is toggled, and tells its flag. -/
def buttonChronometer : ToggledChronometer Bool where
  device := buttonDevice
  readXml := flatXml
  running := id
  toggle := by decide
  idle := by decide
  status := by decide
  status_running := by
    intro running answer hanswer data hdata
    have hpage : (buttonDevice.respond running statusRequest).1 = some (buttonPage running) := rfl
    rw [hpage] at hanswer
    obtain rfl := Option.mem_some_iff.mp hanswer
    cases (buttonPage_read running).symm.trans hdata
    rfl

/-- The second of two starts before a poll stops the chronometer. -/
theorem second_start_stops :
    ¬ ∀ calls, Always (manualStep buttonChronometer) (ManualRun.Safe buttonChronometer)
      (.start buttonChronometer .zero .zero false) calls := by
  intro h
  let calls : List ManualCall :=
    [.start defaultOptions "ajax_server".toList [], .start defaultOptions "comm_server".toList []]
  have hsent : (run (manualStep buttonChronometer) (.start buttonChronometer .zero .zero false)
      calls).map ManualRun.sent = some [(.start, false), (.start, true)] := by decide
  obtain ⟨r, hr, hsent⟩ := Option.map_eq_some_iff.mp hsent
  have hsafe := (h calls).of_run hr (.start, true) (by rw [hsent]; simp)
  exact absurd (hsafe.1 rfl) (by decide)

end SerialChrono
