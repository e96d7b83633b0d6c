import SerialChrono.StatusInvariant

/-!
# Setting the counters at once (`main_mgr.c`)

`data <faults>:<refusals>:<eliminated>` sets three counters, and `fault <n>` one of them.  The
faults the program shows are the sum of two counters, `faults` and `touchs`, and both commands
set `faults` to the total they are given less the touches.

`main_mgr_data` looks for two separators and uses each place found without a test, so it is
defined only for an argument that has both (`dataValidated_iff`).  `main_mgr_fault` sets a
negative `faults` back to zero, and `main_mgr_data` does not: with more touches than the total
given, the first one leaves another total than it was given, and the second a negative count
(`faultCountsAgree_iff`).
-/

namespace SerialChrono

open CText PartialRun

/-! ## The argument of `data` -/

/-- The argument is read exactly if it has both separators; the fields are the text before the
first, the text between them and the rest. -/
lemma parseDataArg_eq_some_iff {arg : CString} {d : DataArg} :
    parseDataArg arg = some d ↔
      ∃ flt reh eli, arg = flt ++ ':' :: (reh ++ ':' :: eli) ∧ ':' ∉ flt ∧ ':' ∉ reh ∧
        d = ⟨atoi flt, atoi reh, atoi eli⟩ := by
  constructor
  · intro h
    obtain ⟨⟨flt, pt⟩, hfirst, h⟩ := Option.bind_eq_some_iff.mp h
    obtain ⟨⟨reh, eli⟩, hsecond, h⟩ := Option.bind_eq_some_iff.mp h
    cases h
    obtain ⟨rfl, hflt⟩ := cutAt_eq_some_iff.mp hfirst
    obtain ⟨rfl, hreh⟩ := cutAt_eq_some_iff.mp hsecond
    exact ⟨flt, reh, eli, rfl, hflt, hreh, rfl⟩
  · rintro ⟨flt, reh, eli, rfl, hflt, hreh, rfl⟩
    simp [parseDataArg, cutAt_append hflt, cutAt_append hreh]

lemma parseDataArg_isSome_iff (arg : CString) :
    (parseDataArg arg).isSome = true ↔ 2 ≤ arg.count ':' := by
  constructor
  · intro h
    obtain ⟨d, hd⟩ := Option.isSome_iff_exists.mp h
    obtain ⟨flt, reh, eli, rfl, -, -, -⟩ := parseDataArg_eq_some_iff.mp hd
    simp only [List.count_append, List.count_cons_self]
    omega
  · intro h
    have hmem : ':' ∈ arg := List.count_pos_iff.mp (by omega)
    obtain ⟨flt, pt, rfl, hflt⟩ := List.eq_append_cons_of_mem hmem
    rw [List.count_append, List.count_eq_zero_of_not_mem hflt, List.count_cons_self] at h
    have hpos : 0 < pt.count ':' := by omega
    obtain ⟨reh, eli, rfl, hreh⟩ := List.eq_append_cons_of_mem (List.count_pos_iff.mp hpos)
    rw [parseDataArg_eq_some_iff.mpr ⟨flt, reh, eli, rfl, hflt, hreh, rfl⟩]
    rfl

/-- The `data` command with this argument either sets the three counters from the three fields of
the argument, or returns -1 and leaves everything as it is; it is defined in any case. -/
def DataValidated (config : Configuration) (source arg : CString) (args : Tokens) : Prop :=
  ∃ res config', mainMgrData config (source :: Command.data.cmd :: arg :: args)
      (source :: Command.data.cmd :: arg :: args).length = some (res, config') ∧
    ((∃ flt reh eli, arg = flt ++ ':' :: (reh ++ ':' :: eli) ∧ ':' ∉ flt ∧ ':' ∉ reh ∧
        config' = { config with
          status.faults := atoi flt - config.status.touchs
          status.refusals := atoi reh
          status.eliminated := if atoi eli = 0 then 0 else 1 }) ∨
      res = -1 ∧ config' = config)

/-- **Which arguments of `data` are handled.** Those with at least two separators. -/
theorem dataValidated_iff (config : Configuration) (source arg : CString) (args : Tokens) :
    DataValidated config source arg args ↔ 2 ≤ arg.count ':' := by
  have hdata : mainMgrData config (source :: Command.data.cmd :: arg :: args)
      (source :: Command.data.cmd :: arg :: args).length =
        (parseDataArg arg).map fun d => (0, { config with status := d.apply config.status }) := by
    simp [mainMgrData, Option.map_eq_bind]
  rw [← parseDataArg_isSome_iff]
  unfold DataValidated
  rw [hdata]
  constructor
  · rintro ⟨res, config', h, -⟩
    rcases hparse : parseDataArg arg with - | d
    · rw [hparse] at h
      cases h
    · rfl
  · intro h
    obtain ⟨d, hd⟩ := Option.isSome_iff_exists.mp h
    obtain ⟨flt, reh, eli, harg, hflt, hreh, rfl⟩ := parseDataArg_eq_some_iff.mp hd
    rw [hd]
    exact ⟨0, _, rfl, .inl ⟨flt, reh, eli, harg, hflt, hreh, rfl⟩⟩

/-- `data 5` looks for the separator after the one that is missing. -/
theorem data_without_separator :
    ¬ ∀ (config : Configuration) (source arg : CString) (args : Tokens),
      DataValidated config source arg args := by
  intro h
  obtain ⟨res, config', hundefined, -⟩ := h defaultOptions "comm_server".toList "5".toList []
  cases hundefined

/-! ## The total of the faults -/

/-- A number too large for an `int` does not read back as itself. -/
lemma atoi_printNat_append (n : ℕ) {rest : CString} (hr : EndsNumber rest) :
    atoi (printNat n ++ rest) = toInt32 (min longMax n) := by
  rw [atoi, strtol, textInt_printNat_append n hr]
  congr 1
  simp only [longMin, longMax]
  omega

lemma toInt32_clamped_eq_iff (n : ℕ) : toInt32 (min longMax n) = n ↔ n < 2 ^ 31 := by
  constructor
  · intro h
    have hlt := (toInt32_bounds (min longMax n)).2
    omega
  · intro h
    have hclamp : min longMax (n : ℤ) = n := by
      simp only [longMax]
      omega
    rw [hclamp, toInt32_eq_self (by omega) (by omega)]

lemma printNat_ne_of_not_isDigit (n : ℕ) {c : Char} (hc : c.isDigit = false) :
    printNat n ≠ [c] := by
  intro h
  have hmem := not_mem_printNat hc n
  rw [h] at hmem
  exact hmem List.mem_cons_self

lemma parseCountArg_printNat (n : ℕ) :
    parseCountArg (printNat n) = .set (toInt32 (min longMax n)) := by
  have hplus : printNat n ≠ "+".toList := printNat_ne_of_not_isDigit n (by decide)
  have hminus : printNat n ≠ "-".toList := printNat_ne_of_not_isDigit n (by decide)
  have hread := atoi_printNat_append n endsNumber_nil
  rw [List.append_nil] at hread
  rw [parseCountArg, if_neg hplus, if_neg hminus, hread]

/-- The argument of `data` for a total of faults, with the refusals and the elimination the status
has. -/
def dataArgFor (n : ℕ) (s : Status) : CString :=
  printNat n ++ ':' :: (printInt s.refusals ++ ':' :: printInt s.eliminated)

lemma parseDataArg_dataArgFor (n : ℕ) (s : Status) :
    parseDataArg (dataArgFor n s) = some ⟨toInt32 (min longMax n),
      atoi (printInt s.refusals), atoi (printInt s.eliminated)⟩ := by
  have hread := atoi_printNat_append n endsNumber_nil
  rw [List.append_nil] at hread
  rw [← hread]
  exact parseDataArg_eq_some_iff.mpr ⟨_, _, _, rfl, not_mem_printNat (by decide) n,
    not_mem_printInt (by decide) (by decide) _, rfl⟩

/-- After `fault n` the two counters add up to `n`, and each is what `data n:R:E` makes it. -/
def FaultCountsAgree (config : Configuration) (source : CString) (n : ℕ) : Prop :=
  ∃ config₁ config₂,
    mainMgrEntries .fault config [source, Command.fault.cmd, printNat n] 3 = some (0, config₁) ∧
    mainMgrEntries .data config [source, Command.data.cmd, dataArgFor n config.status] 3 =
      some (0, config₂) ∧
    config₁.status.faults + config₁.status.touchs = n ∧
    config₁.status.faults = config₂.status.faults ∧
    config₁.status.touchs = config₂.status.touchs

/-- **When the two ways of setting the faults agree.** The total is not below the touches, which
are not negative, and it is an `int`. -/
theorem faultCountsAgree_iff (config : Configuration) (source : CString) (n : ℕ) :
    FaultCountsAgree config source n ↔
      0 ≤ config.status.touchs ∧ config.status.touchs ≤ n ∧ n < 2 ^ 31 := by
  set m := toInt32 (min longMax n) with hm
  set t := config.status.touchs with ht
  have hfault : mainMgrEntries .fault config [source, Command.fault.cmd, printNat n] 3 =
      some (0, { config with status.faults := max 0 (m - t), status.touchs := max 0 t }) := by
    simp [mainMgrEntries, mainMgrFault, countArg, parseCountArg_printNat, CountArg.applyFaults,
      hm, ht]
  have hdata : mainMgrEntries .data config
      [source, Command.data.cmd, dataArgFor n config.status] 3 =
        some (0, { config with
          status.faults := m - t
          status.refusals := atoi (printInt config.status.refusals)
          status.eliminated :=
            if atoi (printInt config.status.eliminated) = 0 then 0 else 1 }) := by
    simp [mainMgrEntries, mainMgrData, parseDataArg_dataArgFor, DataArg.apply, hm, ht]
  rw [← toInt32_clamped_eq_iff, ← hm]
  constructor
  · rintro ⟨config₁, config₂, h₁, h₂, htotal, hfaults, htouchs⟩
    rw [hfault] at h₁
    rw [hdata] at h₂
    cases h₁
    cases h₂
    dsimp only at htotal hfaults htouchs
    omega
  · rintro ⟨hnonneg, hle, hint⟩
    refine ⟨_, _, hfault, hdata, ?_, ?_, ?_⟩ <;> dsimp only <;> omega

/-- A call with three touches, from another instance. -/
def callWithTouches : CString :=
  "\x7b\"Type\":\"llamada\",\"SessionName\":\"videowall\",\"Drs\":\"12\",".toList ++
    "\"Dog\":\"7\",\"Eqp\":\"1\",\"Flt\":\"0\",\"Toc\":\"3\",\"Reh\":\"0\",".toList ++
    "\"Eli\":\"0\",\"NPr\":\"0\",\"Numero\":\"5\"\x7d".toList

/-- `json_create` on that text. -/
def callWithTouchesTree : Json :=
  .ofFields [("Type".toList, "llamada".toList), ("SessionName".toList, "videowall".toList),
    ("Drs".toList, "12".toList), ("Dog".toList, "7".toList), ("Eqp".toList, "1".toList),
    ("Flt".toList, "0".toList), ("Toc".toList, "3".toList), ("Reh".toList, "0".toList),
    ("Eli".toList, "0".toList), ("NPr".toList, "0".toList), ("Numero".toList, "5".toList)]

def touchesJson : JsonCreate := fun text _ =>
  if text = callWithTouches then some callWithTouchesTree else none

/-- After a call with three touches `fault 1` leaves three faults, and `data 1:0:0` minus two. -/
theorem fault_below_the_touches :
    ¬ ∀ (jsonCreate : JsonCreate) (inputs : List Input) (config : Configuration),
      run (inputStep jsonCreate) defaultOptions inputs = some config →
        ∀ (source : CString) (n : ℕ), FaultCountsAgree config source n := by
  intro h
  have hcreate : touchesJson callWithTouches 128 = some callWithTouchesTree := if_pos rfl
  have hrun : run (inputStep touchesJson) defaultOptions [.event callWithTouches] =
      some { defaultOptions with
        status.touchs := 3, status.dorsal := 12, status.perro := 7, status.equipo := 1 } := by
    simp only [run, inputStep, processEventData, hcreate]
    decide
  obtain ⟨config₁, config₂, hfault, -, htotal, -⟩ := h _ _ _ hrun "ajax".toList 1
  cases hfault
  exact absurd htotal (by decide)

end SerialChrono
