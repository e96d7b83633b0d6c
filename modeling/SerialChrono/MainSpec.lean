import SerialChrono.MainLoop

/-!
# What the `main_mgr` handlers do with a line

One lemma for each kind of handler, in terms of the tokens after the command word: the answer
main gives and the status it leaves.  Everything proved about the status goes through these.
-/

namespace SerialChrono

open CText

/-- The commands whose handler leaves the status alone and accepts every line. -/
def Command.quiet : Command → Bool
  | .start | .int | .stop | .fault | .refusal | .elim | .data | .reset | .turn => false
  | _ => true

/-- The answer and the status of a command that has reached its `main_mgr` handler. -/
def entryOutcome (c : Command) (config : Configuration) (tokens : Tokens) :
    Option (Response × Status) :=
  (mainMgrEntries c config tokens tokens.length).map fun r =>
    (if r.1 < 0 then .mainMgrError else .ok, r.2.status)

/-- The counter argument of a command with these tokens after its word. -/
def restArg : Tokens → CountArg
  | [t] => parseCountArg t
  | _ => .inc

/-- The status a command that moves a counter leaves. -/
def countEffect (c : Command) (arg : CountArg) (s : Status) : Status :=
  match c with
  | .fault =>
    let t := arg.applyFaults s
    { t with faults := max 0 t.faults, touchs := max 0 t.touchs }
  | .refusal => { s with refusals := max 0 (arg.apply s.refusals) }
  | .elim =>
    { s with
      eliminated := match arg with
        | .inc => 1
        | .dec => 0
        | .set n => if n = 0 then 0 else 1 }
  | .turn => { s with numero := max 0 (arg.apply s.numero) }
  | _ => s

lemma restArg_of_length {rest : Tokens} (h : rest.length ≠ 1) : restArg rest = .inc := by
  match rest with
  | [] => rfl
  | [t] => simp at h
  | _ :: _ :: _ => rfl

section

variable (config : Configuration) (source word : CString) (rest : Tokens)

lemma countArg_rest :
    countArg (source :: word :: rest) (source :: word :: rest).length = some (restArg rest) := by
  match rest with
  | [] => rfl
  | [t] => rfl
  | _ :: _ :: _ => simp [countArg, restArg]

lemma entryOutcome_start :
    entryOutcome .start config (source :: word :: rest) =
      some (.ok, { config.status with startTime := (rest.head?.map strtol).getD 0 }) := by
  cases rest <;> simp [entryOutcome, mainMgrEntries, mainMgrStart]

lemma entryOutcome_int :
    entryOutcome .int config (source :: word :: rest) =
      if config.status.startTime < 0 then some (.mainMgrError, config.status)
      else
        match rest.head? with
        | none => some (.mainMgrError, config.status)
        | some t => some (.ok, { config.status with intTime := strtol t }) := by
  cases rest <;> simp only [entryOutcome, mainMgrEntries, mainMgrInt] <;> split <;> simp_all

lemma entryOutcome_stop :
    entryOutcome .stop config (source :: word :: rest) =
      if config.status.startTime < 0 then some (.mainMgrError, config.status)
      else
        match rest.head? with
        | none => some (.mainMgrError, config.status)
        | some t => some (.ok, { config.status with stopTime := strtol t }) := by
  cases rest <;> simp only [entryOutcome, mainMgrEntries, mainMgrStop] <;> split <;> simp_all

lemma entryOutcome_data :
    entryOutcome .data config (source :: word :: rest) =
      match rest.head? with
      | none => some (.mainMgrError, config.status)
      | some t => (parseDataArg t).map fun d => (.ok, d.apply config.status) := by
  cases rest with
  | nil => simp [entryOutcome, mainMgrEntries, mainMgrData]
  | cons t rest =>
    simp [entryOutcome, mainMgrEntries, mainMgrData, Option.map_eq_bind, Option.bind_assoc]

lemma entryOutcome_reset :
    entryOutcome .reset config (source :: word :: rest) = some (.ok, config.status.reset) := by
  simp [entryOutcome, mainMgrEntries, mainMgrReset]

lemma entryOutcome_count {c : Command}
    (hc : c = .fault ∨ c = .refusal ∨ c = .elim ∨ c = .turn) :
    entryOutcome c config (source :: word :: rest) =
      some (.ok, countEffect c (restArg rest) config.status) := by
  have harg := countArg_rest source word rest
  rcases hc with rfl | rfl | rfl | rfl <;>
    simp only [entryOutcome, mainMgrEntries, mainMgrFault, mainMgrRefusal, mainMgrElim,
      mainMgrNumero, harg, Option.bind_eq_bind, Option.bind_some, Option.pure_def,
      Option.map_some] <;>
    rfl

lemma entryOutcome_quiet {c : Command} (hc : c.quiet = true) :
    entryOutcome c config (source :: word :: rest) = some (.ok, config.status) := by
  have harg := countArg_rest source word rest
  cases c <;> simp only [Command.quiet, Bool.false_eq_true] at hc
  case walk =>
    match rest with
    | [] | [_] | _ :: _ :: _ =>
      simp [entryOutcome, mainMgrEntries, mainMgrWalk, walkMinutes, mainMgrReport]
  case down =>
    match rest with
    | [] | [_] | _ :: _ :: _ =>
      simp [entryOutcome, mainMgrEntries, mainMgrDown, downSeconds, mainMgrReport]
  case debug =>
    match rest with
    | [] | [_] | _ :: _ :: _ =>
      simp [entryOutcome, mainMgrEntries, mainMgrDebug, mainMgrReport]
  case bright =>
    simp only [entryOutcome, mainMgrEntries, mainMgrBright, harg, Option.bind_eq_bind,
      Option.bind_some, Option.pure_def, Option.map_some]
    rfl
  all_goals rfl

/-- The one command whose handler has no defined result for some lines. -/
lemma entryOutcome_eq_none_iff (c : Command) :
    entryOutcome c config (source :: word :: rest) = none ↔
      c = .data ∧ ∃ a ∈ rest.head?, parseDataArg a = none := by
  cases c
  case data => cases rest <;> simp [entryOutcome_data]
  case start => simp [entryOutcome_start]
  case int =>
    rw [entryOutcome_int]
    cases rest.head? <;> split <;> simp
  case stop =>
    rw [entryOutcome_stop]
    cases rest.head? <;> split <;> simp
  case reset => simp [entryOutcome_reset]
  case fault => simp [entryOutcome_count]
  case refusal => simp [entryOutcome_count]
  case elim => simp [entryOutcome_count]
  case turn => simp [entryOutcome_count]
  all_goals
    rw [entryOutcome_quiet _ _ _ _ rfl]
    simp

end

/-- Only `bright` writes to the configuration outside the status. -/
lemma mainMgrEntries_frame {c : Command} (hc : c ≠ .bright) {n : ℕ} {tokens : Tokens} {res : ℤ}
    {config config' : Configuration}
    (h : mainMgrEntries c config tokens n = some (res, config')) :
    config' = { config with status := config'.status } := by
  have hfields : config'.ajaxServer = config.ajaxServer ∧ config'.clientName = config.clientName ∧
      config'.ring = config.ring ∧ config'.bright = config.bright := by
    cases c with
    | bright => exact absurd rfl hc
    | int =>
      simp only [mainMgrEntries, mainMgrInt] at h
      grind
    | stop =>
      simp only [mainMgrEntries, mainMgrStop] at h
      grind
    | data =>
      simp only [mainMgrEntries, mainMgrData] at h
      split at h
      · cases h
        simp
      · simp only [Option.bind_eq_bind, Option.bind_eq_some_iff, Option.pure_def,
          Option.some.injEq, Prod.mk.injEq] at h
        obtain ⟨t, -, d, -, -, rfl⟩ := h
        simp
    | debug =>
      simp only [mainMgrEntries, mainMgrDebug, mainMgrReport] at h
      split at h
      · obtain ⟨t, -, h⟩ := Option.bind_eq_some_iff.mp h
        cases h
        simp
      · cases h
        simp
    | _ =>
      simp only [mainMgrEntries, mainMgrStart, mainMgrFail, mainMgrOk, mainMgrMsg, mainMgrWalk,
        mainMgrDown, mainMgrFault, mainMgrRefusal, mainMgrElim, mainMgrReset,
        mainMgrHelp, mainMgrVersion, mainMgrExit, mainMgrServer, mainMgrPorts, mainMgrConfig,
        mainMgrStatus, mainMgrNumero, mainMgrClock, mainMgrReport,
        Option.bind_eq_bind, Option.bind_eq_some_iff, Option.pure_def, Option.some.injEq,
        Prod.mk.injEq] at h
      grind
  obtain ⟨hserver, hname, hring, hbright⟩ := hfields
  rw [← hserver, ← hname, ← hring, ← hbright]

/-! ## The effect of a command on the status -/

/-- What a command with these arguments does to the status. -/
def commandEffect (c : Command) (rest : Tokens) : Option (Status → Status) :=
  match c with
  | .start => some fun s => { s with startTime := (rest.head?.map strtol).getD 0 }
  | .int => some fun s =>
    if s.startTime < 0 then s else { s with intTime := (rest.head?.map strtol).getD s.intTime }
  | .stop => some fun s =>
    if s.startTime < 0 then s else { s with stopTime := (rest.head?.map strtol).getD s.stopTime }
  | .data =>
    match rest.head? with
    | none => some id
    | some t => (parseDataArg t).map DataArg.apply
  | .reset => some Status.reset
  | c => some (countEffect c (restArg rest))

lemma entryOutcome_status (c : Command) (config : Configuration) (source word : CString)
    (rest : Tokens) :
    (entryOutcome c config (source :: word :: rest)).map Prod.snd =
      (commandEffect c rest).map fun f => f config.status := by
  cases c with
  | start => simp [entryOutcome_start, commandEffect]
  | int =>
    rw [entryOutcome_int]
    cases hrest : rest.head? <;> simp only [commandEffect, hrest] <;> split <;> simp_all
  | stop =>
    rw [entryOutcome_stop]
    cases hrest : rest.head? <;> simp only [commandEffect, hrest] <;> split <;> simp_all
  | data =>
    rw [entryOutcome_data]
    cases hrest : rest.head? with
    | none => simp [commandEffect, hrest]
    | some t => simp [commandEffect, hrest, Function.comp_def]
  | reset => simp [entryOutcome_reset, commandEffect]
  | fault => simp [entryOutcome_count, commandEffect]
  | refusal => simp [entryOutcome_count, commandEffect]
  | elim => simp [entryOutcome_count, commandEffect]
  | turn => simp [entryOutcome_count, commandEffect]
  | _ =>
    rw [entryOutcome_quiet _ _ _ _ rfl]
    rfl

/-- The configuration a command other than `bright` leaves. -/
lemma mainMgrEntries_config {c : Command} (hc : c ≠ .bright) (config : Configuration)
    (source word : CString) (rest : Tokens) :
    (mainMgrEntries c config (source :: word :: rest) (source :: word :: rest).length).map
        Prod.snd =
      (commandEffect c rest).map fun f => { config with status := f config.status } := by
  have hstatus := entryOutcome_status c config source word rest
  unfold entryOutcome at hstatus
  cases hentry : mainMgrEntries c config (source :: word :: rest)
      (source :: word :: rest).length with
  | none =>
    rw [hentry, Option.map_none, Option.map_none, eq_comm, Option.map_eq_none_iff] at hstatus
    simp [hstatus]
  | some r =>
    obtain ⟨res, config'⟩ := r
    rw [hentry, Option.map_some, Option.map_some, eq_comm, Option.map_eq_some_iff] at hstatus
    obtain ⟨f, hf, hstatus⟩ := hstatus
    rw [Option.map_some, hf, Option.map_some, hstatus]
    exact congrArg some (mainMgrEntries_frame hc hentry)

lemma commandEffect_sessionID {c : Command} {rest : Tokens} {f : Status → Status}
    (hf : commandEffect c rest = some f) (s : Status) : (f s).sessionID = s.sessionID := by
  cases c with
  | data =>
    simp only [commandEffect] at hf
    split at hf
    · cases hf
      rfl
    · obtain ⟨d, -, rfl⟩ := Option.map_eq_some_iff.mp hf
      rfl
  | fault =>
    cases hf
    cases restArg rest <;> simp only [countEffect, CountArg.applyFaults]
    split <;> try rfl
    split <;> rfl
  | int | stop =>
    cases hf
    dsimp only
    split <;> rfl
  | _ =>
    cases hf
    rfl

/-- The configuration a line leaves. -/
lemma mainFront_config (config : Configuration) {buffer source word : CString} {c : Command}
    {rest : Tokens} (hc : c ≠ .bright)
    (h : parseLine buffer = some (.command c (source :: word :: rest))) :
    (mainFront config buffer).map Front.config =
      (commandEffect c rest).map fun f => { config with status := f config.status } := by
  rw [← mainMgrEntries_config hc config source word rest, mainFront_command h, Option.map_map]
  congr 1
  funext r
  simp only [Function.comp_apply]
  split <;> rfl

/-- No line changes the session or the name of the client. -/
lemma sameSession_front {config : Configuration} {buffer : CString} {front : Front}
    (h : mainFront config buffer = some front) : config.SameSession front.config := by
  cases hline : parseLine buffer with
  | none =>
    rw [mainFront_none hline] at h
    cases h
  | some line =>
    cases line with
    | tooShort =>
      rw [mainFront_tooShort hline] at h
      cases h
      exact .refl config
    | empty =>
      rw [mainFront_empty hline] at h
      cases h
      exact .refl config
    | command c tokens =>
      obtain ⟨source, rest, rfl⟩ := parseLine_command hline
      by_cases hc : c = .bright
      · subst hc
        have harg := countArg_rest source Command.bright.cmd rest
        rw [mainFront_command hline] at h
        simp only [mainMgrEntries, mainMgrBright, harg, Option.bind_eq_bind, Option.bind_some,
          Option.pure_def, Option.map_some, Option.some.injEq] at h
        rw [← h]
        exact ⟨rfl, rfl⟩
      · have hconfig := mainFront_config config hc hline
        rw [h, Option.map_some, eq_comm, Option.map_eq_some_iff] at hconfig
        obtain ⟨f, hf, hconfig⟩ := hconfig
        rw [← hconfig]
        exact ⟨commandEffect_sessionID hf config.status, rfl⟩

/-- No line changes the name of the session. -/
lemma getSessionName_front {config : Configuration} {buffer : CString} {front : Front}
    (h : mainFront config buffer = some front) :
    getSessionName front.config = getSessionName config :=
  (sameSession_front h).getSessionName_eq

end SerialChrono
