import SerialChrono.Canometroweb.Model

/-!
# The requests of the driver

The requests by their kind, the chronometer after some of them, and those that a synchronization
of the counters sends: `sendSteps_eq` is about the loops of the older protocol, and
`synchronizeChrono_eq` about the whole exchange.  What the steps come to on a chronometer that
takes each of them is `after_stepRequests`.
-/

namespace SerialChrono

open CText

variable {D : Type} (dev : Device D)

/-- The request for the status. -/
def statusRequest : Request := ⟨"xml".toList, [], true⟩

/-- The request of a command that sends no order: one without a page. -/
def idleRequest : Request := ⟨[], [], true⟩

lemma sendrec_status (s : DriverState D) :
    sendrec dev s "xml".toList none true =
      ((dev.respond s.device statusRequest).1,
        { s with device := (dev.respond s.device statusRequest).2 }) := rfl

/-- A request to do something. -/
def actionRequest (tipo valor : CString) : Request :=
  ⟨"canometro_accion".toList, ("tipo=".toList ++ tipo ++ "&valor=".toList ++ valor).take 254, false⟩

/-! ## Requests one after the other -/

/-- The chronometer after these requests. -/
def Device.after (dev : Device D) (d : D) (requests : List Request) : D :=
  requests.foldl (fun d request => (dev.respond d request).2) d

lemma Device.after_cons (dev : Device D) (d : D) (request : Request) (requests : List Request) :
    dev.after d (request :: requests) = dev.after (dev.respond d request).2 requests := rfl

lemma Device.after_append (dev : Device D) (d : D) (xs ys : List Request) :
    dev.after d (xs ++ ys) = dev.after (dev.after d xs) ys := List.foldl_append

/-- What none of the requests changes. -/
lemma Device.after_unchanged {α : Type} (f : D → α) {requests : List Request}
    (h : ∀ request ∈ requests, ∀ d, f (dev.respond d request).2 = f d) (d : D) :
    f (dev.after d requests) = f d := by
  induction requests generalizing d with
  | nil => rfl
  | cons request requests ih =>
    obtain ⟨hfirst, hrest⟩ := List.forall_mem_cons.mp h
    rw [Device.after_cons, ih hrest, hfirst]

/-! ## The loops of the older protocol -/

/-- The requests that bring a counter from `cur` to `target`. -/
def stepRequests (tipo : CString) (target cur : ℤ) : List Request :=
  List.replicate (target - cur).natAbs
    (actionRequest tipo (if cur < target then "1".toList else "-1".toList))

lemma stepRequests_self (tipo : CString) (n : ℤ) : stepRequests tipo n n = [] := by
  unfold stepRequests
  rw [sub_self]
  rfl

/-- Each request brings the counter one nearer. -/
lemma stepRequests_cons (tipo : CString) {target cur : ℤ} (h : target ≠ cur) :
    stepRequests tipo target cur =
      actionRequest tipo (if 0 < delta target cur then "1".toList else "-1".toList) ::
        stepRequests tipo target (cur + delta target cur) := by
  unfold stepRequests delta
  rcases lt_or_gt_of_ne h with hlt | hgt
  · rw [if_neg hlt.not_gt, if_pos hlt, if_neg hlt.not_gt, if_neg (by decide), if_neg (by omega),
      show (target - cur).natAbs = (target - (cur + -1)).natAbs + 1 by omega, List.replicate_succ]
  · obtain ⟨n, hn⟩ := Nat.exists_eq_succ_of_ne_zero (show (target - cur).natAbs ≠ 0 by omega)
    rw [if_pos hgt, if_pos hgt, if_pos one_pos, hn, List.replicate_succ,
      show (target - (cur + 1)).natAbs = n by omega]
    rcases n with - | n
    · rfl
    · rw [if_pos (show cur + 1 < target by omega)]

lemma mem_stepRequests {tipo : CString} {target cur : ℤ} {request : Request}
    (h : request ∈ stepRequests tipo target cur) : ∃ valor, request = actionRequest tipo valor :=
  ⟨_, List.eq_of_mem_replicate h⟩

lemma stepRequests_of_lt (tipo : CString) {target cur : ℤ} (h : cur < target) :
    stepRequests tipo target cur =
      actionRequest tipo "1".toList :: stepRequests tipo target (cur + 1) := by
  have hdelta : delta target cur = 1 := if_pos h
  have hcons := stepRequests_cons tipo h.ne'
  rwa [hdelta, if_pos one_pos] at hcons

lemma stepRequests_of_gt (tipo : CString) {target cur : ℤ} (h : target < cur) :
    stepRequests tipo target cur =
      actionRequest tipo "-1".toList :: stepRequests tipo target (cur - 1) := by
  have hdelta : delta target cur = -1 := by rw [delta, if_neg h.not_gt, if_pos h]
  have hcons := stepRequests_cons tipo h.ne
  rwa [hdelta, if_neg (by decide), ← sub_eq_add_neg] at hcons

/-- A counter that each step brings one nearer gets to the target; what the steps keep, the whole
of them keeps. -/
lemma after_stepRequests (tipo : CString) (count : D → ℤ) (Kept : D → Prop) (target : ℤ)
    (hmore : ∀ d, Kept d → count d < target →
      Kept (dev.respond d (actionRequest tipo "1".toList)).2 ∧
        count (dev.respond d (actionRequest tipo "1".toList)).2 = count d + 1)
    (hless : ∀ d, Kept d → target < count d →
      Kept (dev.respond d (actionRequest tipo "-1".toList)).2 ∧
        count (dev.respond d (actionRequest tipo "-1".toList)).2 = count d - 1)
    {d : D} (hd : Kept d) :
    Kept (dev.after d (stepRequests tipo target (count d))) ∧
      count (dev.after d (stepRequests tipo target (count d))) = target := by
  induction hn : (target - count d).natAbs generalizing d with
  | zero =>
    have hcount : count d = target := by omega
    rw [hcount, stepRequests_self]
    exact ⟨hd, hcount⟩
  | succ n ih =>
    rcases lt_trichotomy (count d) target with hlt | heq | hgt
    · obtain ⟨hkept, hcount⟩ := hmore d hd hlt
      rw [stepRequests_of_lt tipo hlt, Device.after_cons, ← hcount]
      exact ih hkept (by omega)
    · omega
    · obtain ⟨hkept, hcount⟩ := hless d hd hgt
      rw [stepRequests_of_gt tipo hgt, Device.after_cons, ← hcount]
      exact ih hkept (by omega)

/-- **The loops of the older protocol.** -/
theorem sendSteps_eq (dev : Device D) (tipo : CString) (target cur : ℤ) (s : DriverState D) :
    sendSteps dev tipo target cur s =
      { s with device := dev.after s.device (stepRequests tipo target cur) } := by
  fun_induction sendSteps dev tipo target cur s with
  | case1 cur s hdelta =>
    obtain rfl : target = cur := by
      unfold delta at hdelta
      split_ifs at hdelta <;> omega
    rw [stepRequests_self]
    rfl
  | case2 cur s hdelta valor answer t hsend ih =>
    have hne : target ≠ cur := by
      rintro rfl
      exact hdelta (by simp [delta])
    have ht : t = { s with
        device := (dev.respond s.device (actionRequest tipo valor)).2 } :=
      (congrArg Prod.snd hsend).symm
    rw [ih, ht, stepRequests_cons tipo hne, Device.after_cons]
    rfl

/-! ## The exchange -/

/-- The requests that make up for the difference. -/
def syncRequests (config : Configuration) (newer : Bool) (status : CanometrowebData) :
    List Request :=
  let ft := config.status.faults + config.status.touchs
  let r := config.status.refusals
  (if newer then
    [actionRequest "TF".toList (printInt ft), actionRequest "TR".toList (printInt r)]
  else stepRequests "F".toList ft status.faltas ++ stepRequests "R".toList r status.rehuses) ++
    if config.status.eliminated ≠ status.eliminado then [actionRequest "E".toList "0".toList]
    else []

/-- A synchronization that goes well has read the status. -/
lemma synchronizeChrono_read {readXml : XmlReader} {config : Configuration} {s t : DriverState D}
    {res : ℤ} (h : synchronizeChrono dev readXml config s = some (res, t)) (hres : ¬ res < 0) :
    ∃ data status, (dev.respond s.device statusRequest).1 = some data ∧
      parseStatusXml readXml .zero data = some (some status) := by
  unfold synchronizeChrono at h
  simp only [sendrec_status] at h
  rcases hanswer : (dev.respond s.device statusRequest).1 with - | data
  · simp only [hanswer, Option.some.injEq, Prod.mk.injEq] at h
    exact absurd (by rw [← h.1]; decide) hres
  · simp only [hanswer] at h
    obtain ⟨parsed, hparsed, h⟩ := Option.bind_eq_some_iff.mp h
    rcases parsed with - | status
    · cases h
      exact absurd (by decide) hres
    · exact ⟨data, status, rfl, hparsed⟩

/-- **A synchronization** that can read the status goes to its end. -/
theorem synchronizeChrono_eq (dev : Device D) (readXml : XmlReader) (config : Configuration)
    {s : DriverState D} {data : CString} {status : CanometrowebData}
    (hanswer : (dev.respond s.device statusRequest).1 = some data)
    (hstatus : parseStatusXml readXml .zero data = some (some status)) :
    ∃ t, synchronizeChrono dev readXml config s = some (0, t) ∧
      t.device = dev.after s.device
        (statusRequest :: syncRequests config (strstr "uptime".toList data) status) := by
  unfold synchronizeChrono syncRequests
  simp only [sendrec_status, hanswer, hstatus, Option.bind_eq_bind, Option.bind_some,
    Option.pure_def]
  refine ⟨_, rfl, ?_⟩
  dsimp only
  rw [Device.after_cons, Device.after_append]
  cases strstr "uptime".toList data with
  | true =>
    rw [if_pos rfl, if_pos rfl]
    split_ifs <;> rfl
  | false =>
    rw [if_neg Bool.false_ne_true, if_neg Bool.false_ne_true, sendSteps_eq, sendSteps_eq,
      Device.after_append]
    split_ifs <;> rfl

end SerialChrono
