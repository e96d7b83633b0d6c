import SerialChrono.Canometroweb.Echo
import SerialChrono.Canometroweb.Synchronize
import SerialChrono.Managers.Publish

/-!
# A difference that settles

The counters a poll reports are the total of faults and touchs, the refusals and the mark of the
elimination, printed in a `DATA` command.  Main reads them back, takes the touchs off the total,
and the next poll adds them again: `counters_settle` says that it finds no difference.
-/

namespace SerialChrono

open CText

variable {D : Type} (dev : Device D) (readXml : XmlReader)

/-! ## Counters that have been read -/

/-- The counters are each an `int`. -/
structure CanometrowebData.IntCounters (data : CanometrowebData) : Prop where
  faltas : IsInt data.faltas
  rehuses : IsInt data.rehuses
  eliminado : IsInt data.eliminado

lemma intCounters_zero : CanometrowebData.zero.IntCounters :=
  ⟨by decide, by decide, by decide⟩

lemma parseStatusElement_int {pt data : CanometrowebData} {element : XmlElement}
    (hpt : pt.IntCounters) (h : parseStatusElement pt element = some data) :
    data.IntCounters := by
  obtain ⟨hfaltas, hrehuses, heliminado⟩ := hpt
  unfold parseStatusElement at h
  dsimp only at h
  split at h
  -- the three counters; the other fields leave them alone
  case h_5 =>
    obtain ⟨a, -, rfl⟩ := Option.map_eq_some_iff.mp h
    exact ⟨atoi_bounds a, hrehuses, heliminado⟩
  case h_6 =>
    obtain ⟨a, -, rfl⟩ := Option.map_eq_some_iff.mp h
    exact ⟨hfaltas, atoi_bounds a, heliminado⟩
  case h_7 =>
    obtain ⟨a, -, rfl⟩ := Option.map_eq_some_iff.mp h
    exact ⟨hfaltas, hrehuses, atoi_bounds a⟩
  case h_10 | h_11 =>
    cases h
    exact ⟨hfaltas, hrehuses, heliminado⟩
  all_goals
    obtain ⟨a, -, rfl⟩ := Option.map_eq_some_iff.mp h
    exact ⟨hfaltas, hrehuses, heliminado⟩

lemma foldlM_parseStatusElement_int {elements : List XmlElement} {pt data : CanometrowebData}
    (hpt : pt.IntCounters) (h : elements.foldlM parseStatusElement pt = some data) :
    data.IntCounters := by
  induction elements generalizing pt with
  | nil =>
    cases h
    exact hpt
  | cons element elements ih =>
    rw [List.foldlM_cons] at h
    obtain ⟨next, hnext, h⟩ := Option.bind_eq_some_iff.mp h
    exact ih (parseStatusElement_int hpt hnext) h

/-- The counters of a poll come from `atoi`. -/
lemma polledStatus_int {s : DriverState D} {data : CanometrowebData}
    (h : polledStatus dev readXml s = some (some data)) : data.IntCounters := by
  unfold polledStatus at h
  split at h
  · cases h
  · unfold parseStatusXml at h
    split at h
    · cases h
    · obtain ⟨parsed, hparsed, hdata⟩ := Option.map_eq_some_iff.mp h
      cases hdata
      exact foldlM_parseStatusElement_int intCounters_zero hparsed

/-! ## The command -/

/-- The argument of the `DATA` command for these counters. -/
def CanometrowebData.arg (data : CanometrowebData) : DataArg :=
  ⟨data.faltas, data.rehuses, data.eliminado⟩

lemma dataText_arg (data : CanometrowebData) :
    dataText data = "DATA".toList ++ ' ' :: data.arg.text := by
  have hword : "DATA ".toList = "DATA".toList ++ [' '] := by decide
  rw [dataText_eq, hword, DataArg.text, CanometrowebData.arg]
  simp only [List.append_assoc, List.cons_append, List.nil_append]

lemma length_dataText {data : CanometrowebData} (h : data.IntCounters) :
    (dataText data).length ≤ 40 := by
  have hfaltas := h.faltas.length_printInt
  have hrehuses := h.rehuses.length_printInt
  have heliminado := h.eliminado.length_printInt
  have hword : "DATA ".toList.length = 5 := rfl
  rw [dataText_eq]
  simp only [List.length_append, List.length_cons, hword]
  omega

/-- The line of the network thread with these counters. -/
def dataLine (data : CanometrowebData) : CString := scNetwork ++ ' ' :: dataText data

/-- The buffer has room for the command. -/
lemma networkLine_data {data : CanometrowebData} (h : data.IntCounters) :
    networkLine ((dataText data).take (pollLength - 1)) = some (dataLine data) := by
  have hlength := length_dataText h
  have hnewline : '\n' ∉ dataText data :=
    notMem_dataText (by decide) (by decide) (by decide) (by decide) data
  have hne : dataText data ≠ [] := by
    rw [dataText_arg]
    exact List.cons_ne_nil _ _
  rw [List.take_of_length_le (by rw [pollLength]; omega)]
  exact (driverLine_of_line scNetwork hnewline hne).2

lemma receive_dataLine {data : CanometrowebData} (h : data.IntCounters) :
    receive (dataLine data) = some (dataLine data) := by
  have hlength := length_dataText h
  have hsource : scNetwork.length = 10 := rfl
  have hnul : '\x00' ∉ dataLine data := by
    have htext : '\x00' ∉ dataText data :=
      notMem_dataText (by decide) (by decide) (by decide) (by decide) data
    rw [dataLine, List.mem_append, List.mem_cons, not_or, not_or]
    exact ⟨by decide, by decide, htext⟩
  have hshort : (dataLine data).length < 500 := by
    rw [dataLine, List.length_append, List.length_cons]
    omega
  rw [receive, if_pos hshort, cstr, takeWhile_ne_self hnul]

/-! ## Main -/

/-- What main leaves of the counters is what the chronometer has. -/
lemma not_countersDiffer_apply {config : Configuration} {data : CanometrowebData}
    (heliminado : data.eliminado = 0 ∨ data.eliminado = 1) :
    ¬ countersDiffer { config with status := data.arg.apply config.status } data := by
  simp only [countersDiffer, CanometrowebData.arg, DataArg.apply, not_or, not_not]
  refine ⟨(sub_add_cancel _ _).symm, trivial, ?_⟩
  split_ifs <;> omega

/-- The numbers are read as they were printed. -/
lemma parseDataArg_arg {data : CanometrowebData} (h : data.IntCounters) :
    parseDataArg data.arg.text = some data.arg := by
  rw [parseDataArg_text]
  simp only [CanometrowebData.arg, (atoi_printInt_iff _).mpr h.faltas,
    (atoi_printInt_iff _).mpr h.rehuses, (atoi_printInt_iff _).mpr h.eliminado]

/-- Main takes the counters over. -/
lemma mainFront_dataLine (config : Configuration) {data : CanometrowebData}
    (h : data.IntCounters) :
    mainFront config (dataLine data) =
      some (.dispatch .data [scNetwork, Command.data.cmd, data.arg.text]
        { config with status := data.arg.apply config.status }) := by
  have hblank : ' ' ∉ data.arg.text :=
    data.arg.notMem_text (by decide) (by decide) (by decide)
  have hline := parseLine_append data.arg.text (by decide : ' ' ∉ scNetwork)
    (by decide : ' ' ∉ "DATA".toList) (by decide) (by decide : _ = Command.data.cmd)
  rw [List.splitOn_eq_singleton hblank, List.length_singleton, if_pos (by decide)] at hline
  rw [dataLine, dataText_arg, mainFront_command hline]
  show ((parseDataArg data.arg.text).bind fun d =>
    some ((0 : ℤ), { config with status := d.apply config.status })).map _ = _
  rw [parseDataArg_arg h]
  rfl

variable (answer : PutEvent → ℤ)

/-! ## The polls -/

/-- A report goes by the stored running state. -/
lemma report_of_sameRun {stored stored' : CanometrowebData} (h : stored.SameRun stored')
    (received : CanometrowebData) : report stored received = report stored' received := by
  unfold report
  rw [h.1, h.2]

/-- A poll that only finds other counters. -/
lemma pollLine_counters (config : Configuration) {s : DriverState D} (hsem : s.sem ≠ 0)
    {data : CanometrowebData} (hseen : polledStatus dev readXml s = some (some data))
    (hrun : report s.cwData data = none) (hdiffer : countersDiffer config data) :
    pollLine dev readXml config s =
      some (some (dataLine data), (pollResult dev config s (some data)).2.2) := by
  rw [pollLine_eq dev readXml config hsem hseen]
  simp only [pollText, hrun]
  rw [if_pos hdiffer, networkLine_data (polledStatus_int dev readXml hseen)]

/-- A poll that finds nothing new. -/
lemma pollLine_quiet (config : Configuration) {s : DriverState D} (hsem : s.sem ≠ 0)
    {data : CanometrowebData} (hseen : polledStatus dev readXml s = some (some data))
    (hrun : report s.cwData data = none) (hsame : ¬ countersDiffer config data) :
    ∃ driver, pollLine dev readXml config s = some (none, driver) := by
  refine ⟨(pollResult dev config s (some data)).2.2, ?_⟩
  rw [pollLine_eq dev readXml config hsem hseen]
  simp only [pollText, hrun]
  rw [if_neg hsame]
  rfl

/-- **A difference settles.** A poll that reports no change of the run but finds other counters
sends them; main carries the line out, with or without a link with AgilityContest; and a poll
after that which finds these counters, and no change of the run, sends nothing. -/
theorem counters_settle (linked : Bool) {s : MainState (LinkWorld D)} (hloop : s.loop = true)
    (hsem : s.world.driver.sem ≠ 0) {device : D} {data : CanometrowebData}
    (hseen : polledStatus dev readXml { s.world.driver with device } = some (some data))
    (heliminado : data.eliminado = 0 ∨ data.eliminado = 1)
    (hdiffer : countersDiffer s.config data) (hrun : report s.world.driver.cwData data = none) :
    ∃ driver t,
      pollLine dev readXml s.config { s.world.driver with device } =
        some (some (dataLine data), driver) ∧
      linkLine dev readXml answer linked { s with world.driver := driver } (dataLine data) =
        some t ∧
      ∀ device' data',
        polledStatus dev readXml { t.world.driver with device := device' } = some (some data') →
        data'.faltas = data.faltas → data'.rehuses = data.rehuses →
        data'.eliminado = data.eliminado → report data data' = none →
        ∃ driver', pollLine dev readXml t.config { t.world.driver with device := device' } =
          some (none, driver') := by
  have hint := polledStatus_int dev readXml hseen
  let driver := polledDriver dev s.config s.world.driver device data
  obtain ⟨t, ht, hconfig, hdriver, -⟩ := linkLine_published dev readXml answer linked
    (s := { s with world.driver := driver }) hloop (receive_dataLine hint)
    (mainFront_dataLine s.config hint) rfl fun _ _ => rfl
  refine ⟨driver, t, pollLine_counters (s := { s.world.driver with device }) dev readXml s.config
    hsem hseen hrun hdiffer, ht, ?_⟩
  intro device' data' hseen' hfaltas hrehuses helim hrun'
  have hsem' : t.world.driver.sem ≠ 0 := by
    rw [hdriver]
    exact hsem
  have hstored : t.world.driver.cwData.SameRun data := by
    rw [hdriver]
    exact pollData_run s.config s.world.driver.cwData data
  have hsame : ¬ countersDiffer t.config data' := by
    rw [hconfig]
    simp only [countersDiffer, hfaltas, hrehuses, helim]
    exact not_countersDiffer_apply heliminado
  exact pollLine_quiet (s := { t.world.driver with device := device' }) dev readXml t.config hsem'
    hseen' ((report_of_sameRun hstored data').trans hrun') hsame

/-- The program with a chronometer of steps that has a fault and the elimination. -/
def steppedLink : MainState (LinkWorld DeviceCounts) :=
  ⟨defaultOptions, ⟨.fresh ⟨1, 0, 1⟩, []⟩, true⟩

lemma steppedLink_seen (t : DriverState DeviceCounts) :
    polledStatus stepDevice markupXml { t with device := ⟨1, 0, 1⟩ } =
      some (some { CanometrowebData.zero with faltas := 1, eliminado := 1 }) :=
  countsPage_read (x := ⟨1, 0, 1⟩) (by decide) (by decide) (by decide)

/-- They are sent once. -/
theorem counters_settle_stepped :
    ∃ driver t,
      pollLine stepDevice markupXml steppedLink.config steppedLink.world.driver =
        some (some "net_server DATA 1:0:1".toList, driver) ∧
      linkLine stepDevice markupXml (fun _ => 0) true
          { steppedLink with world.driver := driver } "net_server DATA 1:0:1".toList = some t ∧
      ∃ driver', pollLine stepDevice markupXml t.config
          { t.world.driver with device := ⟨1, 0, 1⟩ } = some (none, driver') := by
  obtain ⟨driver, t, hpoll, hline, hsettled⟩ := counters_settle stepDevice markupXml (fun _ => 0)
    true (s := steppedLink) rfl (by decide) (steppedLink_seen steppedLink.world.driver) (.inr rfl)
    (by decide) (by decide)
  exact ⟨driver, t, hpoll, hline, hsettled ⟨1, 0, 1⟩ _ (steppedLink_seen t.world.driver) rfl rfl
    rfl (by decide)⟩

end SerialChrono
