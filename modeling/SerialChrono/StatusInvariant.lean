import SerialChrono.MainSpec
import SerialChrono.Events.Update

/-!
# The bounds of the status

The counters of the status are never negative, `eliminated` is 0 or 1 and the brightness goes
from 0 to 9: so they start, and so most handlers keep them.  Two writers do not look: the `data`
command takes its faults less the touches, and its refusals, as they come, and the event
`llamada` takes all its counters as they come.  `sound_iff_along` says that nothing else can
break the bounds: a run keeps them exactly as long as its `data` commands and its calls are
`Bounded`.
-/

namespace SerialChrono

open CText PartialRun

/-! ## The bounds -/

/-- The bounds of the counters. -/
structure Status.Sound (s : Status) : Prop where
  faults : 0 ≤ s.faults
  touchs : 0 ≤ s.touchs
  refusals : 0 ≤ s.refusals
  eliminated : s.eliminated = 0 ∨ s.eliminated = 1
  numero : 0 ≤ s.numero

/-- The bounds of the configuration. -/
structure Configuration.Sound (config : Configuration) : Prop where
  status : config.status.Sound
  bright_nonneg : 0 ≤ config.bright
  bright_le : config.bright ≤ 9

lemma sound_defaultOptions : defaultOptions.Sound := by
  refine ⟨⟨?_, ?_, ?_, ?_, ?_⟩, ?_, ?_⟩ <;> decide

/-! ## What can happen to the status -/

/-- A line for the main thread, or the data of an event. -/
inductive Input
  | line (buffer : CString)
  | event (datastr : CString)

/-- The configuration after an input. -/
def inputStep (jsonCreate : JsonCreate) (config : Configuration) : Input → Option Configuration
  | .line buffer => (mainFront config buffer).map Front.config
  | .event datastr => (processEventData libcNull jsonCreate config datastr 0).map fun r => r.1

/-- The values of a `data` command respect the bounds in a status with these touches. -/
def DataArg.Bounded (d : DataArg) (s : Status) : Prop := s.touchs ≤ d.faults ∧ 0 ≤ d.refusals

/-- The counters sent with a call respect the bounds. -/
structure Sent.Bounded (v : Sent) : Prop where
  faults : ∀ n ∈ v.faults, 0 ≤ n
  touchs : ∀ n ∈ v.touchs, 0 ≤ n
  refusals : ∀ n ∈ v.refusals, 0 ≤ n
  eliminated : ∀ n ∈ v.eliminated, n = 0 ∨ n = 1

/-- The arguments of a command respect the bounds. -/
def ArgsBounded (c : Command) (rest : Tokens) (s : Status) : Prop :=
  match c with
  | .data => ∀ arg ∈ rest.head?, ∀ d ∈ parseDataArg arg, d.Bounded s
  | _ => True

/-- What an event asks for respects the bounds. -/
def Update.Bounded : Update → Prop
  | .call c => c.sent.Bounded
  | _ => True

/-- The `data` commands and the calls of other instances respect the bounds. -/
def Input.Bounded (jsonCreate : JsonCreate) (config : Configuration) : Input → Prop
  | .line buffer => ∀ c source rest,
    parseLine buffer = some (.command c (source :: c.cmd :: rest)) →
      ArgsBounded c rest config.status
  | .event datastr => ∀ rdata ∈ jsonCreate datastr 128,
    ∀ u ∈ treeUpdate libcNull (getSessionName config) rdata, u.Bounded

/-! ## One step -/

lemma applyFaults_frame (arg : CountArg) (s : Status) :
    (arg.applyFaults s).refusals = s.refusals ∧ (arg.applyFaults s).eliminated = s.eliminated ∧
      (arg.applyFaults s).numero = s.numero := by
  cases arg with
  | inc => exact ⟨rfl, rfl, rfl⟩
  | dec =>
    simp only [CountArg.applyFaults]
    split_ifs <;> exact ⟨rfl, rfl, rfl⟩
  | set n => exact ⟨rfl, rfl, rfl⟩

/-- The commands that move a counter set it back to its bounds. -/
lemma sound_countEffect {s : Status} (h : s.Sound) (c : Command) (arg : CountArg) :
    (countEffect c arg s).Sound := by
  cases c with
  | fault =>
    obtain ⟨hrefusals, heliminated, hnumero⟩ := applyFaults_frame arg s
    refine ⟨le_max_left _ _, le_max_left _ _, ?_, ?_, ?_⟩ <;>
      simp only [countEffect, hrefusals, heliminated, hnumero]
    · exact h.refusals
    · exact h.eliminated
    · exact h.numero
  | refusal => exact ⟨h.faults, h.touchs, le_max_left _ _, h.eliminated, h.numero⟩
  | elim =>
    refine ⟨h.faults, h.touchs, h.refusals, ?_, h.numero⟩
    cases arg with
    | inc => exact .inr rfl
    | dec => exact .inl rfl
    | set n =>
      simp only [countEffect]
      split <;> simp
  | turn => exact ⟨h.faults, h.touchs, h.refusals, h.eliminated, le_max_left _ _⟩
  | _ => exact h

lemma sound_dataArg_iff {s : Status} (h : s.Sound) (d : DataArg) :
    (d.apply s).Sound ↔ d.Bounded s := by
  constructor
  · intro hsound
    have hfaults : 0 ≤ d.faults - s.touchs := hsound.faults
    exact ⟨by omega, hsound.refusals⟩
  · rintro ⟨hfaults, hrefusals⟩
    refine ⟨?_, h.touchs, hrefusals, ?_, h.numero⟩
    · simp only [DataArg.apply]
      omega
    · simp only [DataArg.apply]
      split <;> simp

/-- A command keeps the bounds if its arguments respect them. -/
lemma sound_commandEffect_iff {s : Status} (h : s.Sound) {c : Command} {rest : Tokens}
    {f : Status → Status} (hf : commandEffect c rest = some f) :
    (f s).Sound ↔ ArgsBounded c rest s := by
  cases c with
  | data =>
    simp only [commandEffect] at hf
    split at hf
    · next hnone =>
      cases hf
      simp [ArgsBounded, hnone, h]
    · next arg harg =>
      obtain ⟨d, hd, rfl⟩ := Option.map_eq_some_iff.mp hf
      simp [ArgsBounded, harg, hd, sound_dataArg_iff h]
  | int | stop =>
    cases hf
    simp only [ArgsBounded, iff_true]
    split
    · exact h
    · exact ⟨h.faults, h.touchs, h.refusals, h.eliminated, h.numero⟩
  | start =>
    cases hf
    exact iff_of_true ⟨h.faults, h.touchs, h.refusals, h.eliminated, h.numero⟩ trivial
  | reset =>
    cases hf
    exact iff_of_true ⟨le_rfl, le_rfl, le_rfl, .inl rfl, h.numero⟩ trivial
  | _ =>
    cases hf
    exact iff_of_true (sound_countEffect h _ _) trivial

lemma getD_of_forall (P : ℤ → Prop) {v : Option ℤ} {old : ℤ} (hv : ∀ n ∈ v, P n) (hold : P old) :
    P (v.getD old) := by
  cases v with
  | none => exact hold
  | some n => exact hv n rfl

/-- An event keeps the bounds if what it asks for respects them. -/
lemma sound_update_iff {s : Status} (h : s.Sound) (u : Update) :
    (u.apply s).Sound ↔ u.Bounded := by
  cases u with
  | nothing | order _ _ | dog _ => exact iff_of_true h trivial
  | init _ _ | «open» _ _ =>
    exact iff_of_true ⟨le_rfl, le_rfl, le_rfl, .inl rfl, le_rfl⟩ trivial
  | call c =>
    constructor
    · intro hsound
      have hfaults := hsound.faults
      have htouchs := hsound.touchs
      have hrefusals := hsound.refusals
      have heliminated := hsound.eliminated
      simp only [Update.apply, Call.apply] at hfaults htouchs hrefusals heliminated
      constructor <;> intro n hn <;> simp_all
    · rintro ⟨hfaults, htouchs, hrefusals, heliminated⟩
      exact ⟨getD_of_forall _ hfaults h.faults, getD_of_forall _ htouchs h.touchs,
        getD_of_forall _ hrefusals h.refusals,
        getD_of_forall (fun n => n = 0 ∨ n = 1) heliminated h.eliminated, h.numero⟩

/-- The brightness is set back to its bounds. -/
lemma sound_bright {config config' : Configuration} (h : config.Sound) {source word : CString}
    {rest : Tokens} {res : ℤ}
    (hentry : mainMgrEntries .bright config (source :: word :: rest)
      (source :: word :: rest).length = some (res, config')) : config'.Sound := by
  have harg := countArg_rest source word rest
  simp only [mainMgrEntries, mainMgrBright, harg, Option.bind_eq_bind, Option.bind_some,
    Option.pure_def, Option.some.injEq, Prod.mk.injEq] at hentry
  obtain ⟨-, rfl⟩ := hentry
  refine ⟨h.status, ?_, ?_⟩ <;> dsimp only <;> omega

/-- A line keeps the bounds if its command is `Bounded`. -/
lemma sound_line_iff {config : Configuration} (h : config.Sound) {buffer : CString}
    {front : Front} (hfront : mainFront config buffer = some front) :
    front.config.Sound ↔ ∀ c source rest,
      parseLine buffer = some (.command c (source :: c.cmd :: rest)) →
        ArgsBounded c rest config.status := by
  cases hline : parseLine buffer with
  | none =>
    rw [mainFront_none hline] at hfront
    cases hfront
  | some line =>
    cases line with
    | tooShort =>
      rw [mainFront_tooShort hline] at hfront
      cases hfront
      exact iff_of_true h fun _ _ _ hcommand => by cases hcommand
    | empty =>
      rw [mainFront_empty hline] at hfront
      cases hfront
      exact iff_of_true h fun _ _ _ hcommand => by cases hcommand
    | command c tokens =>
      obtain ⟨source, rest, rfl⟩ := parseLine_command hline
      have hone : (∀ c' source' rest',
            some (ParsedLine.command c (source :: c.cmd :: rest)) =
              some (.command c' (source' :: c'.cmd :: rest')) →
            ArgsBounded c' rest' config.status) ↔ ArgsBounded c rest config.status := by
        constructor
        · exact fun hall => hall c source rest rfl
        · intro hbounded c' source' rest' heq
          simp only [Option.some.injEq, ParsedLine.command.injEq, List.cons.injEq] at heq
          obtain ⟨rfl, -, -, rfl⟩ := heq
          exact hbounded
      rw [hone]
      by_cases hc : c = .bright
      · subst hc
        rw [mainFront_command hline] at hfront
        obtain ⟨⟨res, config'⟩, hentry, rfl⟩ := Option.map_eq_some_iff.mp hfront
        have hsound := sound_bright h hentry
        refine iff_of_true ?_ trivial
        dsimp only
        split <;> exact hsound
      · have hconfig := mainFront_config config hc hline
        rw [hfront, Option.map_some, eq_comm, Option.map_eq_some_iff] at hconfig
        obtain ⟨f, hf, hconfig⟩ := hconfig
        rw [← hconfig, ← sound_commandEffect_iff h.status hf]
        exact ⟨fun hs => hs.status, fun hs => ⟨hs, h.bright_nonneg, h.bright_le⟩⟩

/-- An event keeps the bounds if it is `Bounded`. -/
lemma sound_event_iff {jsonCreate : JsonCreate} {config : Configuration} (h : config.Sound)
    {datastr : CString} {r : Configuration × Option CString × ℤ}
    (hevent : processEventData libcNull jsonCreate config datastr 0 = some r) :
    r.1.Sound ↔ ∀ rdata ∈ jsonCreate datastr 128,
      ∀ u ∈ treeUpdate libcNull (getSessionName config) rdata, u.Bounded := by
  obtain ⟨rdata, hrdata, -⟩ := Option.bind_eq_some_iff.mp hevent
  rw [processEventData_eq hrdata] at hevent
  obtain ⟨⟨config', result⟩, htree, hevent⟩ := Option.map_eq_some_iff.mp hevent
  cases hevent
  rw [processEventTree_eq] at htree
  obtain ⟨u, hu, htree⟩ := Option.map_eq_some_iff.mp htree
  cases htree
  have hone : (∀ rdata' ∈ jsonCreate datastr 128,
      ∀ u' ∈ treeUpdate libcNull (getSessionName config) rdata', u'.Bounded) ↔ u.Bounded := by
    simp [hrdata, hu]
  rw [hone, ← sound_update_iff h.status]
  exact ⟨fun hs => hs.status, fun hs => ⟨hs, h.bright_nonneg, h.bright_le⟩⟩

/-- A step keeps the bounds exactly if its input is `Bounded`. -/
lemma sound_step_iff (jsonCreate : JsonCreate) {config config' : Configuration} {i : Input}
    (h : config.Sound) (hstep : inputStep jsonCreate config i = some config') :
    config'.Sound ↔ i.Bounded jsonCreate config := by
  cases i with
  | line buffer =>
    obtain ⟨front, hfront, rfl⟩ := Option.map_eq_some_iff.mp hstep
    exact sound_line_iff h hfront
  | event datastr =>
    obtain ⟨r, hr, rfl⟩ := Option.map_eq_some_iff.mp hstep
    exact sound_event_iff h hr

/-! ## Runs -/

/-- **The status invariant.** A run from the default options keeps the bounds in every state if
and only if every `data` command and every call in it respects them. -/
theorem sound_iff_along (jsonCreate : JsonCreate) (inputs : List Input) :
    Always (inputStep jsonCreate) Configuration.Sound defaultOptions inputs ↔
      Along (inputStep jsonCreate) (Input.Bounded jsonCreate) defaultOptions inputs :=
  always_iff_along_of_step (fun _ _ _ h hstep => sound_step_iff jsonCreate h hstep)
    sound_defaultOptions

/-- `data 0:-1:0` leaves -1 refusals. -/
theorem data_breaks_the_bounds :
    ¬ ∀ (jsonCreate : JsonCreate) (inputs : List Input),
      Always (inputStep jsonCreate) Configuration.Sound defaultOptions inputs := by
  intro h
  have hafter := ((h (fun _ _ => none) [.line "comm_server data 0:-1:0".toList]).2
    { defaultOptions with status.refusals := -1 } (by decide)).status.refusals
  exact absurd hafter (by decide)

end SerialChrono
