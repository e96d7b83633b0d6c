import SerialChrono.Canometroweb.Lock

/-!
# What a poll reports

`module_read` makes a command of the pair of running states it has stored and received.  `Report`
is that command and `report` the rule behind the table of sixteen masks; `readCommand_eq` says
that the table is the rule.  `moduleRead_spec` is then the whole effect of a poll, and
`moduleWrite_run` says which commands leave the stored running state alone: all of them but
`status`.
-/

namespace SerialChrono

open CText

/-! ## The rule -/

/-- The commands for a change of the running state. -/
inductive Report
  | start
  | stop (tiempo : ℤ)
  | int (tiempo : ℤ)
  | reset
  deriving DecidableEq, Repr

/-- The line sent to the main thread. -/
def Report.text : Report → CString
  | .start => "START 0\n".toList
  | .stop tiempo => "STOP ".toList ++ printULong tiempo ++ "\n".toList
  | .int tiempo => "INT ".toList ++ printULong tiempo ++ "\n".toList
  | .reset => "RESET\n".toList

/-- A chronometer that is stopped at zero has been reset, unless it already was; one that is
stopped elsewhere has finished a run, if it was seen running at another time than zero; one that
runs has started, if it was stopped or its time went back to zero, or else has an intermediate
time, if the time stands still. -/
def report (stored received : CanometrowebData) : Option Report :=
  if received.running = 0 then
    if received.tiempo = 0 then
      if stored.running = 0 ∧ stored.tiempo = 0 then none else some .reset
    else if stored.running = 0 ∨ stored.tiempo = 0 then none
    else some (.stop received.tiempo)
  else if stored.running = 0 then some .start
  else if stored.tiempo = 0 then none
  else if received.tiempo = 0 then some .start
  else if stored.tiempo = received.tiempo then some (.int received.tiempo)
  else none

/-- The table of `module_read` follows the rule. -/
theorem readCommand_eq (stored received : CanometrowebData) :
    readCommand stored received = ((report stored received).map Report.text).getD [] := by
  unfold readCommand report
  by_cases hsr : stored.running = 0 <;> by_cases hst : stored.tiempo = 0 <;>
    by_cases hrr : received.running = 0 <;> by_cases hrt : received.tiempo = 0 <;>
    simp only [hsr, hst, hrr, hrt, if_true, if_false, and_true, and_false, or_true, or_false,
      Option.map_some, Option.map_none, Option.getD_some, Option.getD_none] <;>
    first
    | rfl
    | (split_ifs <;> rfl)

lemma Report.text_stop (tiempo : ℤ) :
    (Report.stop tiempo).text = "STOP ".toList ++ printULong tiempo ++ "\n".toList := rfl

lemma Report.text_int (tiempo : ℤ) :
    (Report.int tiempo).text = "INT ".toList ++ printULong tiempo ++ "\n".toList := rfl

/-- A number between a word and the end of the line. -/
lemma length_word_number {word : CString} (tiempo : ℤ) (hword : word.length ≤ 5) :
    (word ++ printULong tiempo ++ "\n".toList).length ≤ 26 := by
  have hnumber := length_printULong tiempo
  have hend : "\n".toList.length = 1 := rfl
  rw [List.length_append, List.length_append]
  omega

lemma Report.length_text (r : Report) : r.text.length ≤ 26 := by
  rcases r with - | tiempo | tiempo | -
  · decide
  · rw [Report.text_stop]
    exact length_word_number tiempo (by decide)
  · rw [Report.text_int]
    exact length_word_number tiempo (by decide)
  · decide

lemma Report.text_ne_nil (r : Report) : r.text ≠ [] := by
  have hend : ∀ s : CString, s ++ "\n".toList ≠ [] :=
    fun s h => absurd (List.append_eq_nil_iff.mp h).2 (by decide)
  rcases r with - | tiempo | tiempo | -
  · decide
  · exact hend _
  · exact hend _
  · decide

/-! ## A poll -/

/-- The length the network thread gives to `module_read`: what is left of a buffer of 1024 after
the name of the source and a blank. -/
def pollLength : ℕ := 1013

variable {D : Type} (dev : Device D) (readXml : XmlReader)

/-- The status the chronometer answers with; nothing if it cannot be read. -/
def polledStatus (s : DriverState D) : Option (Option CanometrowebData) :=
  match (sendrec dev s "xml".toList none true).1 with
  | none => some none
  | some received => parseStatusXml readXml .zero received

/-- The counters of the chronometer are not those of the program. -/
def countersDiffer (config : Configuration) (data : CanometrowebData) : Prop :=
  data.faltas ≠ config.status.faults + config.status.touchs ∨
    data.rehuses ≠ config.status.refusals ∨ data.eliminado ≠ config.status.eliminated

/-- The command for the counters of the chronometer. -/
def dataText (data : CanometrowebData) : CString :=
  "DATA ".toList ++ printInt data.faltas ++ ':' ::
    printInt data.rehuses ++ ':' :: printInt data.eliminado

lemma dataText_eq (data : CanometrowebData) :
    dataText data = "DATA ".toList ++ printInt data.faltas ++ ':' ::
      printInt data.rehuses ++ ':' :: printInt data.eliminado := rfl

instance (config : Configuration) (data : CanometrowebData) :
    Decidable (countersDiffer config data) := by
  unfold countersDiffer
  infer_instance

/-- What a poll leaves in the buffer: the report, if there is one, or else the counters, if they
differ. -/
def pollText (config : Configuration) (stored received : CanometrowebData) : CString :=
  match report stored received with
  | some r => r.text
  | none =>
    if countersDiffer config received then (dataText received).take (pollLength - 1) else []

/-- What a poll stores: the running state, and the counters when it sends them. -/
def pollData (config : Configuration) (stored received : CanometrowebData) :
    CanometrowebData :=
  let stored' := { stored with tiempo := received.tiempo, running := received.running }
  if report stored received = none ∧ countersDiffer config received then
    { stored' with
      faltas := received.faltas, rehuses := received.rehuses, eliminado := received.eliminado }
  else stored'

/-- What `module_read` returns after the answer of the chronometer has been read. -/
def pollResult (config : Configuration) (s : DriverState D) :
    Option CanometrowebData → ReadResult D
  | none =>
    let (answer, s) := sendrec dev s "xml".toList none true
    (if answer = none then 0 else -1, none, s)
  | some data =>
    let text := pollText config s.cwData data
    (text.length, some text,
      { (sendrec dev s "xml".toList none true).2 with
        cwData := pollData config s.cwData data })

/-- The text of a report is not cut, and no report is empty. -/
lemma readCommand_take (stored received : CanometrowebData) :
    (readCommand stored received).take (pollLength - 1) =
      ((report stored received).map Report.text).getD [] := by
  rw [readCommand_eq]
  rcases report stored received with - | r
  · rfl
  · have hlength := r.length_text
    exact List.take_of_length_le (by simp only [Option.map_some, Option.getD_some, pollLength]; omega)

/-- **A poll** of a driver whose lock is free. -/
theorem moduleRead_free (config : Configuration) {s : DriverState D} (hs : s.sem ≠ 0) :
    moduleRead dev readXml config pollLength s =
      (polledStatus dev readXml s).map fun status =>
        .returned (pollResult dev config s status) := by
  have hsem : s.sem - 1 + 1 = s.sem := Nat.sub_add_cancel (Nat.one_le_iff_ne_zero.mpr hs)
  rcases hrespond : dev.respond s.device statusRequest with ⟨answer, device⟩
  unfold moduleRead semWait polledStatus pollResult
  rw [if_neg hs]
  simp only [sendrec_status, hrespond, semPost, hsem]
  rcases answer with - | received
  · simp only [Option.map_some, if_true]
  · simp only
    rcases hstatus : parseStatusXml readXml .zero received with - | status
    · rfl
    · rcases status with - | data
      · rfl
      · have htake := readCommand_take s.cwData data
        have hdata := (dataText_eq data).symm
        simp only [Option.bind_eq_bind, Option.bind_some, Option.pure_def, Option.map_some,
          htake, hdata, pollText, pollData]
        -- the text is not looked into any more
        generalize (dataText data).take (pollLength - 1) = text
        rcases report s.cwData data with - | r
        · simp only [Option.map_none, Option.getD_none, ne_eq, not_true_eq_false, if_false,
            true_and]
          by_cases hdiffer : countersDiffer config data
          · have hcounters := hdiffer
            simp only [countersDiffer, ne_eq] at hcounters
            simp only [if_pos hcounters, if_pos hdiffer, Option.map_some]
          · have hcounters := hdiffer
            simp only [countersDiffer, ne_eq] at hcounters
            simp only [if_neg hcounters, if_neg hdiffer, Option.map_some, List.length_nil,
              Nat.cast_zero]
        · have htext := r.text_ne_nil
          simp only [Option.map_some, Option.getD_some, ne_eq, htext, not_false_eq_true, if_true,
            reduceCtorEq, false_and, if_false]

/-! ## The stored running state -/

/-- The running state a poll compares with: the same in both. -/
def CanometrowebData.SameRun (a b : CanometrowebData) : Prop :=
  a.running = b.running ∧ a.tiempo = b.tiempo

lemma pollData_run (config : Configuration) (stored received : CanometrowebData) :
    (pollData config stored received).SameRun received := by
  unfold pollData
  split_ifs <;> exact ⟨rfl, rfl⟩

lemma synchronizeChrono_run {config : Configuration} {s t : DriverState D} {res : ℤ}
    (h : synchronizeChrono dev readXml config s = some (res, t)) :
    t.cwData.SameRun s.cwData := by
  unfold synchronizeChrono at h
  simp only [sendrec_status] at h
  rcases hanswer : (dev.respond s.device statusRequest).1 with - | data
  · simp only [hanswer, Option.some.injEq, Prod.mk.injEq] at h
    obtain ⟨-, rfl⟩ := h
    exact ⟨rfl, rfl⟩
  · simp only [hanswer] at h
    obtain ⟨parsed, -, h⟩ := Option.bind_eq_some_iff.mp h
    rcases parsed with - | status
    · cases h
      exact ⟨rfl, rfl⟩
    · cases h
      dsimp only [CanometrowebData.SameRun]
      split_ifs <;> simp only [sendSteps_cwData, sendrec_cwData, and_self]

lemma writeCounters_run {config : Configuration} {s t : DriverState D} {res : ℤ}
    (h : writeCounters dev readXml config s = some (res, t)) : t.cwData.SameRun s.cwData := by
  obtain ⟨⟨res₁, s₁⟩, hsync, h⟩ := Option.bind_eq_some_iff.mp h
  have hrun := synchronizeChrono_run dev readXml hsync
  dsimp only at h
  split at h
  · cases h
    exact hrun
  · rw [(writeRequest_released dev h).cwData]
    exact hrun

/-- The tokens of a `status` command, the one that writes over the stored running state. -/
def isStatusWrite (tokens : Tokens) : Prop :=
  (tokens[1]?.bind fun cmd => findCommand (toLower cmd)) = some .status

instance (tokens : Tokens) : Decidable (isStatusWrite tokens) :=
  inferInstanceAs (Decidable (_ = _))

/-- **Commands.** Every command but `status` leaves the stored running state alone. -/
theorem moduleWrite_run {config : Configuration} {tokens : Tokens} {s t : DriverState D}
    {res : ℤ} (htokens : ¬ isStatusWrite tokens)
    (h : moduleWrite dev readXml config tokens s = some (.returned (res, t))) :
    t.cwData.SameRun s.cwData := by
  obtain ⟨cmd, hcmd, hbody⟩ := Option.bind_eq_some_iff.mp (semWait_returned h)
  unfold isStatusWrite at htokens
  rw [hcmd, Option.bind_some] at htokens
  let taken : DriverState D := { s with sem := s.sem - 1 }
  have hsame : t.cwData = taken.cwData → t.cwData.SameRun s.cwData :=
    fun ht => ht ▸ ⟨rfl, rfl⟩
  rcases hc : findCommand (toLower cmd) with - | c
  · rw [hc] at hbody
    cases hbody
    exact ⟨rfl, rfl⟩
  · rw [hc] at hbody htokens
    cases c with
    | fault | refusal | elim | data => exact writeCounters_run (s := taken) dev readXml hbody
    | walk => exact hsame (writeWalk_released dev hbody).cwData
    | config => exact hsame (writeConfig_released dev readXml hbody).cwData
    | status => exact absurd rfl htokens
    | bright | debug =>
      cases hbody
      exact ⟨rfl, rfl⟩
    | _ => exact hsame (writeRequest_released dev hbody).cwData

end SerialChrono
