import SerialChrono.Canometroweb.Polling

/-!
# The synchronization of the counters (`modules/canometroweb.c`)

`synchronize_chrono` asks the chronometer for its status and sends what is missing: the older
chronometers are told of each fault and refusal, one by one, and the newer ones, which report an
`uptime`, of the totals.

The older protocol gets there: `synchronizeChrono_converges` counts its requests.  The newer one is
never used (`never_absolute`), as the search for the keyword has its arguments the wrong way round,
and no document is part of the keyword.
-/

namespace SerialChrono

open CText

variable {D : Type}

/-! ## The macro `delta` -/

/-- `delta(x,y)!=0` as the preprocessor leaves it: the comparison takes the second branch only. -/
def deltaNe (x y : ℤ) : ℤ :=
  if x > y then 1 else if (if x < y then (-1 : ℤ) else 0) ≠ 0 then 1 else 0

/-- `delta(x,y)>0` as the preprocessor leaves it. -/
def deltaGt (x y : ℤ) : ℤ :=
  if x > y then 1 else if (if x < y then (-1 : ℤ) else 0) > 0 then 1 else 0

/-- Without parentheses around the macro the tests come out as with them. -/
theorem delta_unparenthesized (x y : ℤ) :
    (deltaNe x y ≠ 0 ↔ delta x y ≠ 0) ∧ (deltaGt x y ≠ 0 ↔ 0 < delta x y) := by
  unfold deltaNe deltaGt delta
  rcases lt_trichotomy x y with hlt | rfl | hgt
  · simp [hlt, hlt.not_gt]
  · simp
  · simp [hgt]

/-! ## What a synchronization sends -/

/-- The chronometer, with the requests it has got. -/
def Device.logged (dev : Device D) : Device (D × List Request) :=
  ⟨fun d request =>
    let (answer, device) := dev.respond d.1 request
    (answer, device, d.2 ++ [request])⟩

lemma Device.logged_after (dev : Device D) (d : D × List Request) (requests : List Request) :
    dev.logged.after d requests = (dev.after d.1 requests, d.2 ++ requests) := by
  induction requests generalizing d with
  | nil => exact Prod.ext rfl (List.append_nil _).symm
  | cons request requests ih =>
    rw [Device.after_cons, ih, Device.after_cons, List.append_cons]
    rfl

/-- No document is part of the keyword. -/
lemma strstr_document {readXml : XmlReader}
    (hxml : ∀ xml elements, readXml xml = some elements → '<' ∈ xml) {data : CString}
    {status : CanometrowebData} (hstatus : parseStatusXml readXml .zero data = some (some status)) :
    strstr "uptime".toList data = false := by
  unfold parseStatusXml at hstatus
  rcases hread : readXml data with - | elements
  · simp [hread] at hstatus
  · by_contra hfound
    have hpart := strstr_iff.mp (Bool.eq_true_of_not_eq_false hfound)
    exact absurd (hpart.subset (hxml data elements hread)) (by decide)

/-- What a synchronization sends, the request for the status included. -/
lemma synchronizeChrono_sent {readXml : XmlReader}
    (hxml : ∀ xml elements, readXml xml = some elements → '<' ∈ xml) (dev : Device D)
    (config : Configuration) {s : DriverState (D × List Request)} {data : CString}
    {status : CanometrowebData} (hanswer : (dev.respond s.device.1 statusRequest).1 = some data)
    (hstatus : parseStatusXml readXml .zero data = some (some status)) :
    ∃ t, synchronizeChrono dev.logged readXml config s = some (0, t) ∧
      t.device = (dev.after s.device.1 (statusRequest :: syncRequests config false status),
        s.device.2 ++ statusRequest :: syncRequests config false status) := by
  obtain ⟨t, ht, hdevice⟩ := synchronizeChrono_eq dev.logged readXml config hanswer hstatus
  refine ⟨t, ht, ?_⟩
  rw [hdevice, strstr_document hxml hstatus, Device.logged_after]

/-! ## The kinds of requests -/

/-- The parameter `tipo` of a request. -/
def Request.tipo (request : Request) : CString := (request.postdata.drop 5).takeWhile (· ≠ '&')

/-- The requests of this kind. -/
def ofTipo (tipo : CString) (requests : List Request) : List Request :=
  requests.filter fun request => request.tipo = tipo

lemma ofTipo_append (tipo : CString) (xs ys : List Request) :
    ofTipo tipo (xs ++ ys) = ofTipo tipo xs ++ ofTipo tipo ys := List.filter_append xs ys

lemma tipo_actionRequest {tipo : CString} (h : tipo ∈ ["F".toList, "R".toList, "E".toList])
    (valor : CString) : (actionRequest tipo valor).tipo = tipo := by
  simp only [List.mem_cons, List.not_mem_nil, or_false] at h
  rcases h with rfl | rfl | rfl <;> rfl

/-- The steps of a counter are all of its kind. -/
lemma ofTipo_stepRequests (tipo : CString) {other : CString}
    (h : other ∈ ["F".toList, "R".toList, "E".toList]) (target cur : ℤ) :
    ofTipo tipo (stepRequests other target cur) =
      if other = tipo then stepRequests other target cur else [] := by
  unfold ofTipo stepRequests
  rw [List.filter_replicate, tipo_actionRequest h]
  simp only [decide_eq_true_eq]

lemma ofTipo_status {tipo : CString} (h : tipo ≠ []) (requests : List Request) :
    ofTipo tipo (statusRequest :: requests) = ofTipo tipo requests :=
  List.filter_cons_of_neg (by simpa [Request.tipo, statusRequest] using h.symm)

lemma length_stepRequests (tipo : CString) (target cur : ℤ) :
    (stepRequests tipo target cur).length = (target - cur).natAbs := List.length_replicate

lemma ofTipo_syncRequests (tipo : CString) (config : Configuration) (status : CanometrowebData) :
    ofTipo tipo (syncRequests config false status) =
      (if "F".toList = tipo then
        stepRequests "F".toList (config.status.faults + config.status.touchs) status.faltas
      else []) ++
      (if "R".toList = tipo then stepRequests "R".toList config.status.refusals status.rehuses
      else []) ++
      if "E".toList = tipo ∧ config.status.eliminated ≠ status.eliminado then
        [actionRequest "E".toList "0".toList]
      else [] := by
  unfold syncRequests
  dsimp only
  rw [if_neg Bool.false_ne_true, ofTipo_append, ofTipo_append,
    ofTipo_stepRequests tipo (by simp), ofTipo_stepRequests tipo (by simp)]
  congr 1
  by_cases helim : config.status.eliminated ≠ status.eliminado
  · simp [helim, ofTipo, List.filter_singleton, tipo_actionRequest]
  · simp [helim, ofTipo]

/-! ## The older protocol -/

/-- The counters of a chronometer. -/
structure DeviceCounts where
  faltas : ℤ
  rehuses : ℤ
  eliminado : ℤ
  deriving DecidableEq, Repr

/-- A chronometer that counts by steps: `F` and `R` add their value and `E` toggles the mark.  Its
status tells the counters, and what is read as XML has a tag in it. -/
structure OldCanometer (D : Type) where
  device : Device D
  readXml : XmlReader
  counts : D → DeviceCounts
  document : ∀ xml elements, readXml xml = some elements → '<' ∈ xml
  status : ∀ d, counts (device.respond d statusRequest).2 = counts d
  status_counts : ∀ d, ∀ answer ∈ (device.respond d statusRequest).1, ∀ data,
    parseStatusXml readXml .zero answer = some (some data) →
      (⟨data.faltas, data.rehuses, data.eliminado⟩ : DeviceCounts) = counts d
  fault : ∀ d valor, valor = 1 ∨ valor = -1 →
    counts (device.respond d (actionRequest "F".toList (printInt valor))).2 =
      { counts d with faltas := (counts d).faltas + valor }
  refusal : ∀ d valor, valor = 1 ∨ valor = -1 →
    counts (device.respond d (actionRequest "R".toList (printInt valor))).2 =
      { counts d with rehuses := (counts d).rehuses + valor }
  elimination : ∀ d, counts (device.respond d (actionRequest "E".toList "0".toList)).2 =
    { counts d with eliminado := if (counts d).eliminado = 0 then 1 else 0 }

variable (c : OldCanometer D)

/-- The steps bring their counter to the target, if each adds its value to it. -/
lemma after_countSteps (tipo : CString) (get : DeviceCounts → ℤ)
    (put : DeviceCounts → ℤ → DeviceCounts) (hget : ∀ x n, get (put x n) = n)
    (hput : ∀ x m n, put (put x m) n = put x n) (hsame : ∀ x, put x (get x) = x)
    (hstep : ∀ d valor, valor = 1 ∨ valor = -1 →
      c.counts (c.device.respond d (actionRequest tipo (printInt valor))).2 =
        put (c.counts d) (get (c.counts d) + valor)) (target : ℤ) (d : D) :
    c.counts (c.device.after d (stepRequests tipo target (get (c.counts d)))) =
      put (c.counts d) target := by
  have hmore : ∀ e, c.counts (c.device.respond e (actionRequest tipo "1".toList)).2 =
      put (c.counts e) (get (c.counts e) + 1) := fun e => hstep e 1 (.inl rfl)
  have hless : ∀ e, c.counts (c.device.respond e (actionRequest tipo "-1".toList)).2 =
      put (c.counts e) (get (c.counts e) - 1) := fun e => hstep e (-1) (.inr rfl)
  -- the steps keep the other counters
  obtain ⟨hothers, htarget⟩ := after_stepRequests c.device tipo (fun e => get (c.counts e))
    (fun e => put (c.counts e) target = put (c.counts d) target) target
    (fun e he _ => ⟨by rw [hmore, hput, he], by rw [hmore, hget]⟩)
    (fun e he _ => ⟨by rw [hless, hput, he], by rw [hless, hget]⟩) (d := d) rfl
  rw [← hsame (c.counts (c.device.after d _)), htarget, hothers]

/-- All the counters. -/
lemma after_syncRequests (config : Configuration) {status : CanometrowebData} {d : D}
    (hcounts : (⟨status.faltas, status.rehuses, status.eliminado⟩ : DeviceCounts) = c.counts d)
    (hlocal : config.status.eliminated = 0 ∨ config.status.eliminated = 1)
    (hdevice : status.eliminado = 0 ∨ status.eliminado = 1) :
    c.counts (c.device.after d (syncRequests config false status)) =
      ⟨config.status.faults + config.status.touchs, config.status.refusals,
        config.status.eliminated⟩ := by
  unfold syncRequests
  dsimp only
  rw [if_neg Bool.false_ne_true, Device.after_append, Device.after_append]
  have hfaults := after_countSteps c "F".toList DeviceCounts.faltas
    (fun x n => { x with faltas := n }) (fun _ _ => rfl) (fun _ _ _ => rfl) (fun _ => rfl) c.fault
    (config.status.faults + config.status.touchs) d
  rw [← hcounts] at hfaults
  have hrefusals := after_countSteps c "R".toList DeviceCounts.rehuses
    (fun x n => { x with rehuses := n }) (fun _ _ => rfl) (fun _ _ _ => rfl) (fun _ => rfl)
    c.refusal config.status.refusals (c.device.after d (stepRequests "F".toList
      (config.status.faults + config.status.touchs) status.faltas))
  rw [hfaults] at hrefusals
  split_ifs with helim
  · refine (c.elimination _).trans ?_
    rw [hrefusals]
    dsimp only
    split_ifs <;> congr 1 <;> omega
  · refine hrefusals.trans ?_
    rw [not_not.mp helim]

/-- **The older protocol.** Whatever the counters are, the synchronization ends, the chronometer
then shows those of the program, and each fault and each refusal of the difference has been sent
once. -/
theorem synchronizeChrono_converges (config : Configuration) {s : DriverState (D × List Request)}
    (hread : ∃ data ∈ (c.device.respond s.device.1 statusRequest).1, ∃ status,
      parseStatusXml c.readXml .zero data = some (some status))
    (hlocal : config.status.eliminated = 0 ∨ config.status.eliminated = 1)
    (hdevice : (c.counts s.device.1).eliminado = 0 ∨ (c.counts s.device.1).eliminado = 1) :
    ∃ t sent, synchronizeChrono c.device.logged c.readXml config s = some (0, t) ∧
      c.counts t.device.1 =
        ⟨config.status.faults + config.status.touchs, config.status.refusals,
          config.status.eliminated⟩ ∧
      t.device.2 = s.device.2 ++ sent ∧
      (ofTipo "F".toList sent).length = (config.status.faults + config.status.touchs -
        (c.counts s.device.1).faltas).natAbs ∧
      (ofTipo "R".toList sent).length =
        (config.status.refusals - (c.counts s.device.1).rehuses).natAbs := by
  obtain ⟨data, hanswer, status, hstatus⟩ := hread
  have hcounts := c.status_counts s.device.1 data hanswer status hstatus
  obtain ⟨t, ht, hend⟩ := synchronizeChrono_sent c.document c.device config hanswer hstatus
  rw [← hcounts] at hdevice ⊢
  refine ⟨t, _, ht, ?_, congrArg Prod.snd hend, ?_, ?_⟩
  · rw [hend]
    exact after_syncRequests c config (hcounts.trans (c.status _).symm) hlocal hdevice
  · rw [ofTipo_status (by decide), ofTipo_syncRequests]
    simp [length_stepRequests]
  · rw [ofTipo_status (by decide), ofTipo_syncRequests]
    simp [length_stepRequests]

/-! ## A chronometer of steps -/

/-- `xmlReadMemory` on a page of numbers; a text without a tag is no document. -/
def markupXml : XmlReader := fun xml => if '<' ∈ xml then flatXml xml else none

lemma markupXml_document (xml : CString) (elements : List XmlElement)
    (h : markupXml xml = some elements) : '<' ∈ xml := by
  unfold markupXml at h
  split_ifs at h with hmem
  exact hmem

/-- The page of an older chronometer. -/
def countsPage (x : DeviceCounts) : CString :=
  fieldsPage [("faltas".toList, x.faltas), ("rehuses".toList, x.rehuses),
    ("eliminado".toList, x.eliminado)]

lemma countsPage_read {x : DeviceCounts} (hfaltas : IsInt x.faltas) (hrehuses : IsInt x.rehuses)
    (heliminado : IsInt x.eliminado) :
    parseStatusXml markupXml .zero (countsPage x) = some (some { CanometrowebData.zero with
      faltas := x.faltas, rehuses := x.rehuses, eliminado := x.eliminado }) := by
  have hfields : statusFields.lookup (strhash "faltas".toList) = some .faltas ∧
      statusFields.lookup (strhash "rehuses".toList) = some .rehuses ∧
      statusFields.lookup (strhash "eliminado".toList) = some .eliminado := by decide
  have hmarkup : markupXml (countsPage x) = flatXml (countsPage x) := if_pos List.mem_cons_self
  have hnames : ∀ field ∈ [("faltas".toList, x.faltas), ("rehuses".toList, x.rehuses),
      ("eliminado".toList, x.eliminado)], plainName field.1 = true := by
    simp only [List.forall_mem_cons, List.not_mem_nil, false_imp_iff, implies_true, and_true]
    decide
  rw [parseStatusXml, hmarkup, countsPage, flatXml_fieldsPage hnames]
  simp only [List.map_cons, List.map_nil, List.foldlM_cons, List.foldlM_nil, parseStatusElement,
    hfields, Option.map_some, atoi_printInt hfaltas.1 hfaltas.2,
    atoi_printInt hrehuses.1 hrehuses.2, atoi_printInt heliminado.1 heliminado.2]
  rfl

/-- What an order does to the counters. -/
def DeviceCounts.take (x : DeviceCounts) (request : Request) : DeviceCounts :=
  if request = actionRequest "F".toList "1".toList then { x with faltas := x.faltas + 1 }
  else if request = actionRequest "F".toList "-1".toList then { x with faltas := x.faltas + -1 }
  else if request = actionRequest "R".toList "1".toList then { x with rehuses := x.rehuses + 1 }
  else if request = actionRequest "R".toList "-1".toList then { x with rehuses := x.rehuses + -1 }
  else if request = actionRequest "E".toList "0".toList then
    { x with eliminado := if x.eliminado = 0 then 1 else 0 }
  else x

/-- An older chronometer.  It has no page for counters that are not an `int`. -/
def stepDevice : Device DeviceCounts :=
  ⟨fun x request =>
    (some (if request = statusRequest ∧ IsInt x.faltas ∧ IsInt x.rehuses ∧ IsInt x.eliminado then
      countsPage x else []), x.take request)⟩

def stepCanometer : OldCanometer DeviceCounts where
  device := stepDevice
  readXml := markupXml
  counts := id
  document := markupXml_document
  status _ := rfl
  status_counts x answer hanswer data hdata := by
    obtain rfl := Option.mem_some_iff.mp hanswer
    split_ifs at hdata with hint
    · cases (countsPage_read hint.2.1 hint.2.2.1 hint.2.2.2).symm.trans hdata
      rfl
    · cases hdata
  fault x valor hvalor := by
    rcases hvalor with rfl | rfl <;> rfl
  refusal x valor hvalor := by
    rcases hvalor with rfl | rfl <;> rfl
  elimination x := rfl

/-- The driver of a chronometer, before its first call. -/
def DriverState.fresh (device : D) : DriverState D := ⟨.zero, .zero, 1, device⟩

/-- Two faults more, a refusal less, and the elimination. -/
theorem synchronizeChrono_converges_step :
    ∃ t sent, synchronizeChrono stepCanometer.device.logged stepCanometer.readXml
          { defaultOptions with status.faults := 2, status.touchs := 1, status.eliminated := 1 }
          (.fresh (⟨1, 1, 0⟩, [])) = some (0, t) ∧
      stepCanometer.counts t.device.1 = ⟨2 + 1, 0, 1⟩ ∧ t.device.2 = [] ++ sent ∧
      (ofTipo "F".toList sent).length = (2 + 1 - 1 : ℤ).natAbs ∧
      (ofTipo "R".toList sent).length = (0 - 1 : ℤ).natAbs :=
  synchronizeChrono_converges stepCanometer
    { defaultOptions with status.faults := 2, status.touchs := 1, status.eliminated := 1 }
    ⟨countsPage ⟨1, 1, 0⟩, rfl, _, countsPage_read (by decide) (by decide) (by decide)⟩ (.inr rfl)
    (.inl rfl)

/-! ## The newer protocol -/

/-- The totals are sent, each once and nothing else, and the elimination if it differs. -/
def SyncsAbsolutely (dev : Device D) (readXml : XmlReader) (config : Configuration)
    (status : CanometrowebData) (s : DriverState (D × List Request)) : Prop :=
  ∃ t sent, synchronizeChrono dev.logged readXml config s = some (0, t) ∧
    t.device.2 = s.device.2 ++ sent ∧
    ofTipo "TF".toList sent =
      [actionRequest "TF".toList (printInt (config.status.faults + config.status.touchs))] ∧
    ofTipo "TR".toList sent = [actionRequest "TR".toList (printInt config.status.refusals)] ∧
    ofTipo "F".toList sent = [] ∧ ofTipo "R".toList sent = [] ∧
    ofTipo "E".toList sent =
      if config.status.eliminated ≠ status.eliminado then [actionRequest "E".toList "0".toList]
      else []

/-- No synchronization sends the total of the faults. -/
lemma totals_notMem {readXml : XmlReader}
    (hxml : ∀ xml elements, readXml xml = some elements → '<' ∈ xml) (dev : Device D)
    (config : Configuration) {s : DriverState (D × List Request)} {data : CString}
    {status : CanometrowebData} (hanswer : (dev.respond s.device.1 statusRequest).1 = some data)
    (hstatus : parseStatusXml readXml .zero data = some (some status)) :
    ¬ SyncsAbsolutely dev readXml config status s := by
  rintro ⟨t, sent, hsync, hsent, htotal, -⟩
  obtain ⟨t', hsync', hdevice⟩ := synchronizeChrono_sent hxml dev config hanswer hstatus
  cases hsync.symm.trans hsync'
  rw [hdevice] at hsent
  have hnone : ofTipo "TF".toList sent = [] := by
    rw [← List.append_cancel_left hsent, ofTipo_status (by decide), ofTipo_syncRequests]
    rfl
  rw [hnone] at htotal
  cases htotal

/-- **The newer protocol** is never used, whatever the document says about `uptime`. -/
theorem never_absolute {readXml : XmlReader}
    (hxml : ∀ xml elements, readXml xml = some elements → '<' ∈ xml) (dev : Device D)
    (config : Configuration) (s : DriverState (D × List Request)) {data : CString}
    (hanswer : (dev.respond s.device.1 statusRequest).1 = some data)
    (_huptime : strstr data "uptime".toList = true) {status : CanometrowebData}
    (hstatus : parseStatusXml readXml .zero data = some (some status)) :
    ¬ SyncsAbsolutely dev readXml config status s :=
  totals_notMem hxml dev config hanswer hstatus

/-- The page of a newer chronometer. -/
def uptimePage : CString := fieldsPage [("uptime".toList, 7), ("faults".toList, 1)]

/-- A newer chronometer that shows a fault. -/
def uptimeDevice : Device Unit := ⟨fun _ _ => (some uptimePage, ())⟩

/-- It has an `uptime`, and is not told of the total. -/
theorem never_absolute_uptime :
    ¬ SyncsAbsolutely uptimeDevice markupXml defaultOptions
      { CanometrowebData.zero with uptime := 7, faltas := 1 } (.fresh ((), [])) :=
  never_absolute markupXml_document uptimeDevice defaultOptions (.fresh ((), [])) rfl (by decide)
    (by decide)

/-- The total of no faults is sent neither as such nor at all. -/
theorem total_not_sent :
    ¬ ∀ (dev : Device Unit) (readXml : XmlReader) (config : Configuration)
      (s : DriverState (Unit × List Request)) (data : CString) (status : CanometrowebData),
      (∀ xml elements, readXml xml = some elements → '<' ∈ xml) →
      (dev.respond s.device.1 statusRequest).1 = some data →
      strstr data "uptime".toList = true →
      parseStatusXml readXml .zero data = some (some status) →
      SyncsAbsolutely dev readXml config status s := by
  intro h
  have hstatus : parseStatusXml markupXml .zero uptimePage =
      some (some { CanometrowebData.zero with uptime := 7, faltas := 1 }) := by decide
  exact totals_notMem markupXml_document uptimeDevice defaultOptions rfl hstatus
    (h uptimeDevice markupXml defaultOptions (.fresh ((), [])) uptimePage _ markupXml_document rfl
      (by decide) hstatus)

end SerialChrono
