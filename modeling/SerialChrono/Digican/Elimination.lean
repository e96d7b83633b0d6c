import SerialChrono.Digican.Totals

/-!
# The frame for the elimination (`digican.c`)

The chronometer can be told that the competitor is eliminated, and not that he is no longer.
`elimTold_iff` is about every sequence of lines, events and frames: it is told so of a competitor
who is eliminated and of no other as long as no `elim` takes the mark away.  `data` looks at the
mark before it writes the frame; `elim` does not, and the handler of the serial manager lets every
argument through.
-/

namespace SerialChrono

open CText PartialRun

namespace Digican

/-! ## The writes with the frame -/

/-- The frames that a call of `module_write` gives to the serial port. -/
def Written.frames : Written → List CString
  | .returns _ => []
  | .blockingWrite buffer => Digican.frames buffer

lemma elimi_notMem_countLoops {frame : CString} (h : '$' ∉ frame)
    (hframe : ∀ sign ∈ ["+".toList, "-".toList], "ELIMI".toList ≠ frame ++ sign)
    (bound target cur : ℤ) (rest : CString) :
    "ELIMI".toList ∈ frames ((countLoops frame bound target cur).1 ++ rest) ↔
      "ELIMI".toList ∈ frames rest := by
  have hsign : loopSign bound cur ∈ ["+".toList, "-".toList] := by
    unfold loopSign
    split_ifs <;> simp
  rw [frames_countLoops h, List.mem_append]
  refine or_iff_right fun hmem => ?_
  exact hframe _ hsign (List.eq_of_mem_replicate hmem)

lemma elimi_notMem_stopFrame (status : Status) :
    "ELIMI".toList ∉ frames (stopFrame status) := by
  obtain ⟨number, hnumber, hframe⟩ := notMem_stopFrame status
  have hword : '$' ∉ "PARAR".toList ++ number := by
    rw [List.mem_append, not_or]
    exact ⟨by decide, hnumber⟩
  have hframes : frames (stopFrame status) = ["PARAR".toList ++ number] := by
    rw [hframe]
    exact frames_append hword []
  rw [hframes, List.mem_singleton]
  intro heq
  exact absurd (congrArg List.head? heq) (by simp)

/-- `elim` writes the frame, and so does `data` if the mark is set. -/
lemma elimi_mem_iff {config : Configuration} {tokens : Tokens} {word : CString} {c : Command}
    (hword : tokens[1]? = some word) (hc : findCommand (toLower word) = some c)
    {s t : Counters} {result : Written} (h : moduleWrite config tokens s = some (result, t)) :
    "ELIMI".toList ∈ result.frames ↔ c = .elim ∨ c = .data ∧ config.status.eliminated ≠ 0 := by
  unfold moduleWrite at h
  simp only [hword, Option.bind_eq_bind, Option.bind_some, hc] at h
  have hfaults := @elimi_notMem_countLoops "FALT".toList (by decide) (by decide)
  have hrefusals := @elimi_notMem_countLoops "REHU".toList (by decide) (by decide)
  cases c with
  | stop =>
    obtain ⟨rfl, -⟩ := writeBuffer_eq_some h
    exact iff_of_false (elimi_notMem_stopFrame _) (by simp)
  | fault =>
    rw [writeFault_eq] at h
    obtain ⟨rfl, -⟩ := writeBuffer_eq_some h
    have hframe := hfaults config.status.faults (config.status.faults + config.status.touchs)
      s.faltas []
    rw [List.append_nil] at hframe
    exact hframe.trans (iff_of_false (by decide) (by simp))
  | refusal =>
    rw [writeRefusal_eq] at h
    obtain ⟨rfl, -⟩ := writeBuffer_eq_some h
    have hframe := hrefusals config.status.refusals config.status.refusals s.rehuses []
    rw [List.append_nil] at hframe
    exact hframe.trans (iff_of_false (by decide) (by simp))
  | data =>
    rw [writeData_eq] at h
    obtain ⟨rfl, -⟩ := writeBuffer_eq_some h
    rw [Written.frames, List.append_assoc, hfaults, hrefusals]
    split_ifs with hmark
    · exact iff_of_true (by decide) (.inr ⟨rfl, hmark⟩)
    · exact iff_of_false (by decide) (by simp [hmark])
  | elim =>
    obtain ⟨rfl, -⟩ := writeBuffer_eq_some h
    exact iff_of_true (by decide) (.inl rfl)
  | bright | debug =>
    cases h
    exact iff_of_false (by simp [Written.frames]) (by simp)
  | _ =>
    obtain ⟨rfl, -⟩ := writeBuffer_eq_some h
    exact iff_of_false (by decide) (by simp)

/-! ## The mark that main leaves -/

/-- A line that leads to a call has had its effect on the status. -/
lemma writeCall_effect {config config' : Configuration} {datagram : List Char} {c : Command}
    {tokens : Tokens} (hc : c ≠ .bright) (h : writeCall config datagram = some (c, config', tokens)) :
    ∃ source rest f, (receive datagram).bind parseLine =
        some (.command c (source :: c.cmd :: rest)) ∧ source ≠ scSerial ∧
      commandEffect c rest = some f ∧ config'.status = f config.status ∧
      (c = .data → rest ≠ []) := by
  obtain ⟨buffer, sent, ntokens, hreceive, hfront, hcall⟩ := writeCall_spec h
  obtain ⟨hline, -⟩ := mainFront_dispatch hfront
  obtain ⟨source, rest, rfl⟩ := parseLine_command hline
  have hconfig := mainFront_config config hc hline
  rw [hfront, Option.map_some, eq_comm, Option.map_eq_some_iff] at hconfig
  obtain ⟨f, hf, hconfig⟩ := hconfig
  refine ⟨source, rest, f, by rw [hreceive, Option.bind_some, hline], serialCall_source hcall,
    hf, ?_, ?_⟩
  · exact (congrArg Configuration.status hconfig).symm
  · rintro rfl rfl
    -- without values the handler answers -1, and the line goes no further
    have hanswered := (mainFront_answered_iff hfront).mpr
      (by rw [Rejected, hline]; exact .inr ⟨rfl, rfl⟩)
    obtain ⟨response, config'', hanswered⟩ := hanswered
    cases hanswered

/-- After a `data` the mark is 0 or 1. -/
lemma eliminated_of_data {config config' : Configuration} {datagram : List Char} {tokens : Tokens}
    (h : writeCall config datagram = some (.data, config', tokens)) :
    config'.status.eliminated = 0 ∨ config'.status.eliminated = 1 := by
  obtain ⟨source, rest, f, -, -, hf, hstatus, hrest⟩ := writeCall_effect (by decide) h
  rcases rest with - | ⟨value, rest⟩
  · exact absurd rfl (hrest rfl)
  · obtain ⟨d, -, rfl⟩ := Option.map_eq_some_iff.mp hf
    rw [hstatus]
    unfold DataArg.apply
    dsimp only
    split_ifs
    · exact .inl rfl
    · exact .inr rfl

/-- The argument of an `elim` that takes the mark away: `-`, or what reads as zero. -/
def clearsMark (rest : Tokens) : Bool := restArg rest = .dec ∨ restArg rest = .set 0

lemma eliminated_of_elim (rest : Tokens) (s : Status) :
    (countEffect .elim (restArg rest) s).eliminated = 1 ↔ clearsMark rest = false := by
  unfold countEffect clearsMark
  rcases restArg rest with - | - | n
  · simp
  · simp
  · by_cases hzero : n = 0 <;> simp [hzero]

/-! ## The frame along a run -/

/-- The frame is written while the competitor is eliminated. -/
def ElimTold (s : World) (input : WorldInput) : Prop :=
  ∀ c config tokens result counters, s.call input = some (c, config, tokens) →
    moduleWrite config tokens s.counters = some (result, counters) →
    "ELIMI".toList ∈ result.frames → config.status.eliminated = 1

/-- The line is an `elim` that takes the mark away, and does not come from the chronometer. -/
def ClearsElim (datagram : List Char) : Prop :=
  ∃ source rest, (receive datagram).bind parseLine =
      some (.command .elim (source :: Command.elim.cmd :: rest)) ∧
    source ≠ scSerial ∧ clearsMark rest = true

/-- Main takes no line that takes the mark away. -/
def KeepsElim (s : World) (input : WorldInput) : Prop :=
  ∀ datagram ∈ s.taken input, ¬ ClearsElim datagram

/-- An `elim` from elsewhere than the chronometer reaches the driver. -/
lemma writeCall_elim (config : Configuration) {datagram : List Char} {source : CString}
    {rest : Tokens} (hline : (receive datagram).bind parseLine =
      some (.command .elim (source :: Command.elim.cmd :: rest))) (hsource : source ≠ scSerial) :
    ∃ tokens, writeCall config datagram = some (.elim,
      { config with status := countEffect .elim (restArg rest) config.status }, tokens) := by
  obtain ⟨buffer, hreceive, hline⟩ := Option.bind_eq_some_iff.mp hline
  let sent := source :: Command.elim.cmd :: rest
  have hconfig := mainMgrEntries_config (c := .elim) (by decide) config source
    Command.elim.cmd rest
  obtain ⟨⟨res, config'⟩, hentry, hconfig⟩ := Option.map_eq_some_iff.mp hconfig
  dsimp only at hconfig
  subst hconfig
  have hfront : mainFront config buffer = some (.dispatch .elim sent
      { config with status := countEffect .elim (restArg rest) config.status }) := by
    rw [mainFront_command hline, hentry, Option.map_some]
    have hres : ¬ res < 0 := by simp [(mainMgrEntries_spec hentry).1]
    rw [if_neg hres]
  have hcall : ∃ tokens ntokens, serialCall .elim sent = some (.moduleWrite tokens ntokens) := by
    have hown : fromSource scSerial sent = false := by simp [fromSource, sent, hsource]
    simp only [serialCall, serialMgrEntries, Option.map_some, serialMgrElim, serialMgrDefault,
      hown, Bool.false_eq_true, if_false]
    split_ifs
    · exact ⟨_, _, rfl⟩
    · exact ⟨_, _, rfl⟩
  obtain ⟨tokens, ntokens, hcall⟩ := hcall
  refine ⟨tokens, ?_⟩
  unfold writeCall
  simp only [hreceive, hfront, hcall, Option.bind_eq_bind, Option.bind_some]

lemma elimTold_step_iff (s : World) (input : WorldInput) :
    ElimTold s input ↔ KeepsElim s input := by
  constructor
  · rintro htold datagram htaken ⟨source, rest, hline, hsource, hclears⟩
    obtain ⟨tokens, hcall⟩ := writeCall_elim s.config hline hsource
    have hword := writeCall_word hcall
    have hfind := findCommand_toLower_cmd .elim
    let status := countEffect .elim (restArg rest) s.config.status
    have hwrite : moduleWrite { s.config with status } tokens s.counters =
        some (.blockingWrite "ELIMI$".toList, s.counters) := by
      unfold moduleWrite
      simp only [hword, Option.bind_eq_bind, Option.bind_some, hfind]
      rfl
    have hmark := htold .elim _ tokens _ _ (by rw [World.call, htaken]; exact hcall) hwrite
      ((elimi_mem_iff hword hfind hwrite).mpr (.inl rfl))
    rw [(eliminated_of_elim rest s.config.status).mp hmark] at hclears
    cases hclears
  · intro hkeeps c config tokens result counters hcall hwrite hframe
    obtain ⟨datagram, htaken, hcall⟩ := Option.bind_eq_some_iff.mp hcall
    have hfind := findCommand_toLower_cmd c
    rcases (elimi_mem_iff (writeCall_word hcall) hfind hwrite).mp hframe with rfl | ⟨rfl, hmark⟩
    · obtain ⟨source, rest, f, hline, hsource, hf, hstatus, -⟩ :=
        writeCall_effect (by decide) hcall
      cases hf
      rw [hstatus]
      refine (eliminated_of_elim rest s.config.status).mpr ?_
      by_contra hclears
      exact hkeeps datagram htaken ⟨source, rest, hline, hsource, by simpa using hclears⟩
    · exact (eliminated_of_data hcall).resolve_left hmark

/-- **The frame for the elimination.** For every sequence of lines from any source, of events and
of frames of the chronometer: the frame is only written while the competitor is eliminated if and
only if main takes no `elim`, except from the chronometer itself, that takes the mark away. -/
theorem elimTold_iff (jsonCreate : JsonCreate) (inputs : List WorldInput) :
    AtEach (worldStep jsonCreate) ElimTold .start inputs ↔
      AtEach (worldStep jsonCreate) KeepsElim .start inputs :=
  atEach_congr elimTold_step_iff

/-- The undoing of an elimination eliminates the competitor on the chronometer. -/
theorem undone_elimination_told :
    ¬ ∀ (jsonCreate : JsonCreate) (inputs : List WorldInput),
      AtEach (worldStep jsonCreate) ElimTold .start inputs := by
  intro h
  have hcall : World.start.call (.line "console elim -".toList) = some (.elim,
      { defaultOptions with status.eliminated := 0 },
      ["console".toList, "elim".toList, "-".toList]) := by decide
  have hmark := (h (fun _ _ => none) [.line "console elim -".toList]).1 _ _ _ _ _ hcall rfl
    (by decide)
  exact absurd hmark (by decide)

end Digican

end SerialChrono
