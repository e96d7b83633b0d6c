import SerialChrono.Canometroweb.Requests
import SerialChrono.Library.PartialRun

/-!
# The lock of the driver

Every exit of `module_read` and `module_write` gives the semaphore back, except the four of the
commands that synchronize the counters of the chronometer with those of the program: when its
status cannot be read, they return with the lock taken, and the next call waits for ever.
`free_iff_along` says that this is the only way to lose the lock, and `blocked_of_lost` that
nothing brings it back.
-/

namespace SerialChrono

open CText PartialRun

variable {D : Type} (dev : Device D) (readXml : XmlReader)

/-! ## Calls -/

/-- A call of the driver; the configuration is the one the other threads have left. -/
inductive DriverCall
  | read (config : Configuration) (length : ℕ)
  | write (config : Configuration) (tokens : Tokens)

/-- The outcome with its result changed. -/
def Outcome.map {α β : Type} (f : α → β) : Outcome α → Outcome β
  | .returned a => .returned (f a)
  | .blocked => .blocked

/-- The state a call leaves. -/
def driverCall (s : DriverState D) : DriverCall → Option (Outcome (DriverState D))
  | .read config length =>
    (moduleRead dev readXml config length s).map (Outcome.map fun result => result.2.2)
  | .write config tokens =>
    (moduleWrite dev readXml config tokens s).map (Outcome.map fun result => result.2)

/-- The driver between two calls, or in one that waits for ever. -/
structure DriverRun (D : Type) where
  state : DriverState D
  blocked : Bool

/-- The driver after `module_init`; the other static variables hold anything. -/
def DriverRun.start (cwData : CanometrowebData) (cwConfig : CanometrowebConfig) (device : D) :
    DriverRun D :=
  ⟨⟨cwData, cwConfig, 1, device⟩, false⟩

/-- One call after the other; there is none after one that waits for ever. -/
def driverStep (r : DriverRun D) (call : DriverCall) : Option (DriverRun D) :=
  if r.blocked then none
  else (driverCall dev readXml r.state call).map fun outcome =>
    match outcome with
    | .returned s => ⟨s, false⟩
    | .blocked => ⟨r.state, true⟩

/-- No call is waiting, and the next one will not wait. -/
structure DriverRun.Free (r : DriverRun D) : Prop where
  returned : r.blocked = false
  sem : r.state.sem = 1

/-- The commands that synchronize the counters. -/
def Command.synchronizes : Command → Bool
  | .fault | .refusal | .elim | .data => true
  | _ => false

/-- The answer to a request for the status, if there is one, is not XML. -/
def StatusUnreadable (s : DriverState D) : Prop :=
  ∀ data ∈ (sendrec dev s "xml".toList none true).1, readXml data = none

/-- The call is not a synchronization of the counters, or the status it asks for can be read. -/
def DriverCall.Readable (r : DriverRun D) : DriverCall → Prop
  | .read _ _ => True
  | .write _ tokens => ∀ cmd ∈ tokens[1]?, ∀ c ∈ findCommand (toLower cmd),
    c.synchronizes = true → ¬ StatusUnreadable dev readXml r.state

/-! ## Requests leave the lock alone -/

@[simp] lemma sendrec_sem (s : DriverState D) (page : CString) (order : Option Order)
    (wantresponse : Bool) : (sendrec dev s page order wantresponse).2.sem = s.sem := rfl

@[simp] lemma sendrec_cwData (s : DriverState D) (page : CString) (order : Option Order)
    (wantresponse : Bool) : (sendrec dev s page order wantresponse).2.cwData = s.cwData := rfl

@[simp] lemma sendSteps_sem (tipo : CString) (target cur : ℤ) (s : DriverState D) :
    (sendSteps dev tipo target cur s).sem = s.sem := by
  rw [sendSteps_eq]

@[simp] lemma sendSteps_cwData (tipo : CString) (target cur : ℤ) (s : DriverState D) :
    (sendSteps dev tipo target cur s).cwData = s.cwData := by
  rw [sendSteps_eq]

/-- The synchronization fails exactly if the status cannot be read. -/
lemma synchronizeChrono_spec {config : Configuration} {s t : DriverState D} {res : ℤ}
    (h : synchronizeChrono dev readXml config s = some (res, t)) :
    t.sem = s.sem ∧ (res < 0 ↔ StatusUnreadable dev readXml s) := by
  unfold StatusUnreadable
  unfold synchronizeChrono at h
  cases hresponse : (sendrec dev s "xml".toList none true).1 with
  | none =>
    simp only [hresponse, Option.some.injEq, Prod.mk.injEq] at h
    obtain ⟨rfl, rfl⟩ := h
    exact ⟨sendrec_sem dev s _ _ _, by simp⟩
  | some data =>
    simp only [hresponse] at h
    obtain ⟨parsed, hparsed, h⟩ := Option.bind_eq_some_iff.mp h
    cases hread : readXml data with
    | none =>
      simp only [parseStatusXml, hread, Option.some.injEq] at hparsed
      subst hparsed
      cases h
      exact ⟨sendrec_sem dev s _ _ _, by simp [hread]⟩
    | some elements =>
      simp only [parseStatusXml, hread, Option.map_eq_some_iff] at hparsed
      obtain ⟨status, -, rfl⟩ := hparsed
      cases h
      refine ⟨?_, by simp [hread]⟩
      dsimp only
      split_ifs <;> simp only [sendrec_sem, sendSteps_sem]

/-- The lock has been given back, and the stored status is as before. -/
structure DriverState.Released (s t : DriverState D) : Prop where
  sem : t.sem = s.sem + 1
  cwData : t.cwData = s.cwData

/-- The end of `module_write` leaves the same state whatever is answered. -/
lemma writeRequest_state (s : DriverState D) (page : CString)
    (order : Option Order) :
    (writeRequest dev s page order).2 = semPost (sendrec dev s page order order.isNone).2 := by
  unfold writeRequest
  rcases (sendrec dev s page order order.isNone) with ⟨- | body, t⟩ <;> rfl

lemma writeRequest_released {s t : DriverState D} {page : CString} {order : Option Order} {res : ℤ}
    (h : some (writeRequest dev s page order) = some (res, t)) : s.Released t := by
  obtain rfl : (writeRequest dev s page order).2 = t := congrArg Prod.snd (Option.some.inj h)
  rw [writeRequest_state]
  exact ⟨rfl, rfl⟩

lemma writeCounters_sem {config : Configuration} {s t : DriverState D} {res : ℤ}
    (h : writeCounters dev readXml config s = some (res, t)) :
    t.sem = s.sem + 1 ↔ ¬ StatusUnreadable dev readXml s := by
  obtain ⟨⟨res₁, s₁⟩, hsync, h⟩ := Option.bind_eq_some_iff.mp h
  obtain ⟨hsem, hres⟩ := synchronizeChrono_spec dev readXml hsync
  rw [← hres]
  dsimp only at h
  split at h
  · next hfail =>
    cases h
    exact iff_of_false (by omega) (not_not.mpr hfail)
  · next hok =>
    exact iff_of_true (by rw [(writeRequest_released dev h).sem, hsem]) hok

lemma writeWalk_released {s t : DriverState D} {tokens : Tokens} {res : ℤ}
    (h : writeWalk dev s tokens = some (res, t)) : s.Released t := by
  obtain ⟨arg, -, h⟩ := Option.bind_eq_some_iff.mp h
  dsimp only at h
  split at h
  · exact writeRequest_released dev h
  · have ht := writeRequest_released dev h
    split at ht <;> exact ⟨ht.sem, ht.cwData⟩

lemma writeConfig_released {s t : DriverState D} {res : ℤ}
    (h : writeConfig dev readXml s = some (res, t)) : s.Released t := by
  unfold writeConfig at h
  cases hresult : (sendrec dev s "config_xml".toList none true).1 with
  | none =>
    simp only [hresult, Option.some.injEq, Prod.mk.injEq] at h
    rw [← h.2]
    exact ⟨rfl, rfl⟩
  | some xml =>
    simp only [hresult] at h
    obtain ⟨cwConfig, -, h⟩ := Option.bind_eq_some_iff.mp h
    cases h
    exact ⟨rfl, rfl⟩

lemma writeStatus_sem {s t : DriverState D} {res : ℤ}
    (h : writeStatus dev readXml s = some (res, t)) : t.sem = s.sem + 1 := by
  unfold writeStatus at h
  cases hresult : (sendrec dev s "xml".toList none true).1 with
  | none =>
    simp only [hresult, Option.some.injEq, Prod.mk.injEq] at h
    rw [← h.2]
    rfl
  | some xml =>
    simp only [hresult] at h
    obtain ⟨cwData, -, h⟩ := Option.bind_eq_some_iff.mp h
    cases h
    rfl

/-! ## One call -/

/-- A call that finds the semaphore at one takes it and goes on. -/
lemma semWait_of_free {α : Type} {s : DriverState D} (hs : s.sem = 1)
    {body : DriverState D → Option α} {outcome : Outcome α}
    (h : semWait s body = some outcome) :
    ∃ a, body { s with sem := 0 } = some a ∧ outcome = .returned a := by
  unfold semWait at h
  rw [if_neg (by omega), hs] at h
  obtain ⟨a, ha, rfl⟩ := Option.map_eq_some_iff.mp h
  exact ⟨a, ha, rfl⟩

/-- A call that returned has found the semaphore above zero. -/
lemma semWait_returned {α : Type} {s : DriverState D} {body : DriverState D → Option α} {a : α}
    (h : semWait s body = some (.returned a)) : body { s with sem := s.sem - 1 } = some a := by
  unfold semWait at h
  split at h
  · cases h
  · obtain ⟨b, hb, hab⟩ := Option.map_eq_some_iff.mp h
    cases hab
    exact hb

lemma moduleRead_sem {config : Configuration} {length : ℕ} {s : DriverState D}
    (hs : s.sem = 1) {outcome : Outcome (ReadResult D)}
    (h : moduleRead dev readXml config length s = some outcome) :
    ∃ res buffer t, outcome = .returned (res, buffer, t) ∧ t.sem = 1 := by
  obtain ⟨⟨res, buffer, t⟩, hbody, rfl⟩ := semWait_of_free hs h
  refine ⟨res, buffer, t, rfl, ?_⟩
  cases hreceived : (sendrec dev { s with sem := 0 } "xml".toList none true).1 with
  | none =>
    simp only [hreceived, Option.some.injEq, Prod.mk.injEq] at hbody
    rw [← hbody.2.2]
    rfl
  | some received =>
    simp only [hreceived] at hbody
    obtain ⟨parsed, -, hbody⟩ := Option.bind_eq_some_iff.mp hbody
    cases parsed with
    | none =>
      cases hbody
      rfl
    | some data =>
      dsimp only at hbody
      split at hbody
      · cases hbody
        rfl
      · split at hbody <;>
        · cases hbody
          rfl

lemma moduleWrite_sem {config : Configuration} {tokens : Tokens} {s : DriverState D}
    (hs : s.sem = 1) {outcome : Outcome (WriteResult D)}
    (h : moduleWrite dev readXml config tokens s = some outcome) :
    ∃ res t, outcome = .returned (res, t) ∧
      (t.sem = 1 ↔ ∀ cmd ∈ tokens[1]?, ∀ c ∈ findCommand (toLower cmd),
        c.synchronizes = true → ¬ StatusUnreadable dev readXml s) := by
  obtain ⟨⟨res, t⟩, hbody, rfl⟩ := semWait_of_free hs h
  refine ⟨res, t, rfl, ?_⟩
  obtain ⟨cmd, hcmd, hbody⟩ := Option.bind_eq_some_iff.mp hbody
  simp only [hcmd, Option.mem_def, Option.some.injEq, forall_eq']
  cases hc : findCommand (toLower cmd) with
  | none =>
    rw [hc] at hbody
    cases hbody
    exact iff_of_true rfl (by simp)
  | some c =>
    rw [hc] at hbody
    simp only [Option.some.injEq, forall_eq']
    cases c with
    | fault | refusal | elim | data =>
      have ht : t.sem = 1 ↔ ¬ StatusUnreadable dev readXml s :=
        writeCounters_sem dev readXml hbody
      simpa [Command.synchronizes] using ht
    | walk => exact iff_of_true (writeWalk_released dev hbody).sem (by simp [Command.synchronizes])
    | config =>
      exact iff_of_true (writeConfig_released dev readXml hbody).sem (by simp [Command.synchronizes])
    | status => exact iff_of_true (writeStatus_sem dev readXml hbody) (by simp [Command.synchronizes])
    | bright | debug =>
      cases hbody
      exact iff_of_true rfl (by simp [Command.synchronizes])
    | _ => exact iff_of_true (writeRequest_released dev hbody).sem (by simp [Command.synchronizes])

/-- A call in a free driver leaves it free exactly if it is `Readable`. -/
lemma free_step_iff {r t : DriverRun D} {call : DriverCall} (hr : r.Free)
    (h : driverStep dev readXml r call = some t) : t.Free ↔ call.Readable dev readXml r := by
  unfold driverStep at h
  rw [hr.returned] at h
  obtain ⟨outcome, houtcome, ht⟩ := Option.map_eq_some_iff.mp h
  cases call with
  | read config length =>
    obtain ⟨result, hresult, rfl⟩ := Option.map_eq_some_iff.mp houtcome
    obtain ⟨res, buffer, s, rfl, hs⟩ := moduleRead_sem dev readXml hr.sem hresult
    rw [← ht]
    exact iff_of_true ⟨rfl, hs⟩ trivial
  | write config tokens =>
    obtain ⟨result, hresult, rfl⟩ := Option.map_eq_some_iff.mp houtcome
    obtain ⟨res, s, rfl, hs⟩ := moduleWrite_sem dev readXml hr.sem hresult
    rw [← ht]
    exact Iff.trans ⟨fun hfree => hfree.sem, fun hsem => ⟨rfl, hsem⟩⟩ hs

/-- Once the lock is lost, whatever is called waits for ever. -/
theorem blocked_of_lost {r : DriverRun D} (hreturned : r.blocked = false)
    (hsem : r.state.sem = 0) (call : DriverCall) :
    driverStep dev readXml r call = some ⟨r.state, true⟩ := by
  cases call <;>
    simp [driverStep, driverCall, moduleRead, moduleWrite, semWait, hreturned, hsem, Outcome.map]

/-! ## Runs -/

/-- **The lock.** For every chronometer and every sequence of calls: the semaphore is at one
whenever no call is in progress, and no call waits for ever, if and only if none of the calls is
a synchronization of the counters that cannot read the status. -/
theorem free_iff_along (cwData : CanometrowebData) (cwConfig : CanometrowebConfig) (device : D)
    (calls : List DriverCall) :
    Always (driverStep dev readXml) DriverRun.Free (DriverRun.start cwData cwConfig device) calls ↔
      Along (driverStep dev readXml) (fun r call => call.Readable dev readXml r)
        (DriverRun.start cwData cwConfig device) calls :=
  always_iff_along_of_step (fun _ _ _ hr h => free_step_iff dev readXml hr h) ⟨rfl, rfl⟩

/-- A chronometer that cannot be reached. -/
def silentDevice : Device Unit := ⟨fun _ _ => (some [], ())⟩

/-- `xmlReadMemory` on an empty text, which is no document. -/
def noXml : XmlReader := fun _ => none

/-- A `fault` while the chronometer cannot be reached keeps the lock. -/
theorem fault_keeps_the_lock :
    ¬ ∀ calls, Always (driverStep silentDevice noXml) DriverRun.Free
      (DriverRun.start .zero ⟨none, none, 0, 0, none, 0⟩ ()) calls := by
  intro h
  have hstep : driverStep silentDevice noXml
      (DriverRun.start .zero ⟨none, none, 0, 0, none, 0⟩ ())
      (.write defaultOptions ["comm_server".toList, "fault".toList]) =
        some ⟨⟨.zero, ⟨none, none, 0, 0, none, 0⟩, 0, ()⟩, false⟩ := by
    rfl
  have hafter := ((h [.write defaultOptions ["comm_server".toList, "fault".toList]]).2 _ hstep).sem
  exact absurd hafter (by decide)

end SerialChrono
