import SerialChrono.Digican.CourseTime

/-!
# The totals on the Digican chronometer (`digican.c`)

The chronometer can only be told to count one more or one less, and `module_write` sends as many
frames as the counts of the driver are away from those of the program.  `bringsToTotals_iff` says
when it gets there.  The branch for `fault` chooses its loop by the faults and runs it up to the
faults and the touches: with a count in between, neither loop does anything.

The frames are put into a buffer of 1024 characters, six for each, and nothing looks at its end.
`writesFit_iff` is about every sequence of lines, events and frames: the buffer is large enough as
long as no command finds the counts more than 170 frames apart.
-/

namespace SerialChrono

open CText PartialRun

namespace Digican

/-! ## What the loops write -/

/-- A frame takes six characters. -/
lemma length_countLoops {frame : CString} (hframe : frame.length = 4) (bound target cur : ℤ) :
    (countLoops frame bound target cur).1.length = 6 * loopTurns bound target cur := by
  have hsign : (loopSign bound cur).length = 1 := by
    unfold loopSign
    split_ifs <;> rfl
  have hend : "$".toList.length = 1 := rfl
  rw [countLoops_text, List.length_flatten, List.map_replicate, List.sum_replicate_nat,
    List.length_append, List.length_append, hframe, hsign, hend, Nat.mul_comm]

/-- The loops get to the target unless the count is between the bound and the target. -/
lemma countLoops_cur_eq_iff (frame : CString) {bound target : ℤ} (h : bound ≤ target) (cur : ℤ) :
    (countLoops frame bound target cur).2 = target ↔ ¬ (bound ≤ cur ∧ cur < target) := by
  rw [countLoops_cur]
  unfold loopTurns
  split_ifs <;> omega

/-! ## The frames that count -/

/-- The frames in a text that count one more, less those that count one less. -/
def netFrames (frame text : CString) : ℤ :=
  (frames text).count (frame ++ "+".toList) - (frames text).count (frame ++ "-".toList)

/-- The loops write as many frames as they count. -/
lemma netFrames_countLoops {frame : CString} (h : '$' ∉ frame) (bound target cur : ℤ)
    (rest : CString) :
    netFrames frame ((countLoops frame bound target cur).1 ++ rest) =
      (countLoops frame bound target cur).2 - cur + netFrames frame rest := by
  have hne : frame ++ "+".toList ≠ frame ++ "-".toList := fun heq =>
    absurd (List.append_cancel_left heq) (by decide)
  rw [netFrames, frames_countLoops h, countLoops_cur]
  unfold loopSign netFrames
  split_ifs
  · rw [List.count_append, List.count_append, List.count_replicate_self,
      List.count_eq_zero_of_not_mem fun hmem => hne (List.eq_of_mem_replicate hmem).symm]
    push_cast
    ring
  · rw [List.count_append, List.count_append, List.count_replicate_self,
      List.count_eq_zero_of_not_mem fun hmem => hne (List.eq_of_mem_replicate hmem)]
    push_cast
    ring

/-- The frames of one counter do not count for the other. -/
lemma netFrames_other {frame other : CString} (h : '$' ∉ frame)
    (hlength : other.length = frame.length) (hother : other ≠ frame) (bound target cur : ℤ)
    (rest : CString) :
    netFrames other ((countLoops frame bound target cur).1 ++ rest) = netFrames other rest := by
  have hnone : ∀ sign : CString, (List.replicate (loopTurns bound target cur)
      (frame ++ loopSign bound cur)).count (other ++ sign) = 0 := by
    intro sign
    refine List.count_eq_zero_of_not_mem fun hmem => hother ?_
    exact (List.append_inj (List.eq_of_mem_replicate hmem) hlength).1
  rw [netFrames, frames_countLoops h, List.count_append, List.count_append, hnone, hnone,
    Nat.zero_add, Nat.zero_add, netFrames]

/-! ## The buffer -/

lemma writeBuffer_isSome_iff (buffer : CString) (s : Counters) :
    (writeBuffer buffer s).isSome = true ↔ buffer.length < 1024 := by
  unfold writeBuffer
  split_ifs with h
  · exact iff_of_true rfl h
  · exact iff_of_false Bool.false_ne_true h

lemma writeBuffer_eq_some {buffer : CString} {s t : Counters} {result : Written}
    (h : writeBuffer buffer s = some (result, t)) : result = .blockingWrite buffer ∧ t = s := by
  unfold writeBuffer at h
  split_ifs at h
  cases h
  exact ⟨rfl, rfl⟩

/-- The counts a command brings together are at most 170 apart; `data` counts the frame for the
elimination in.  Where `fault` has a count between the faults and the total it writes nothing. -/
def Near (status : Status) (s : Counters) : Command → Prop
  | .fault =>
    if s.faltas < status.faults then status.faults + status.touchs - s.faltas ≤ 170
    else s.faltas - (status.faults + status.touchs) ≤ 170
  | .refusal => (status.refusals - s.rehuses).natAbs ≤ 170
  | .data =>
    (status.faults + status.touchs - s.faltas).natAbs + (status.refusals - s.rehuses).natAbs +
      (if status.eliminated ≠ 0 then 1 else 0) ≤ 170
  | _ => True

lemma length_stopFrame_lt (status : Status) : (stopFrame status).length < 1024 := by
  have hbounds := toInt32_bounds ((status.stopTime - status.startTime).tdiv 10)
  have hword : "PARAR".toList.length = 5 := rfl
  have hend : "$".toList.length = 1 := rfl
  rw [stopFrame_eq]
  generalize toInt32 ((status.stopTime - status.startTime).tdiv 10) = x at hbounds
  have hdigits : (printNat x.natAbs).length ≤ 10 :=
    Nat.toDigits_length 10 _ 10 (by decide) (by omega)
  have hnumber : (printInt4 x).length ≤ 11 := by
    unfold printInt4
    split_ifs
    · rw [List.length_cons, List.length_leftpad]
      omega
    · rw [List.length_leftpad]
      omega
  rw [List.length_append, List.length_append, hword, hend]
  omega

lemma length_faults (bound target cur : ℤ) :
    (countLoops "FALT".toList bound target cur).1.length = 6 * loopTurns bound target cur :=
  length_countLoops rfl bound target cur

lemma length_refusals (bound target cur : ℤ) :
    (countLoops "REHU".toList bound target cur).1.length = 6 * loopTurns bound target cur :=
  length_countLoops rfl bound target cur

/-- **The room in the buffer.** -/
theorem moduleWrite_isSome_iff {config : Configuration} {tokens : Tokens} {word : CString}
    {c : Command} (hword : tokens[1]? = some word) (hc : findCommand (toLower word) = some c)
    (s : Counters) : (moduleWrite config tokens s).isSome = true ↔ Near config.status s c := by
  unfold moduleWrite
  simp only [hword, Option.bind_eq_bind, Option.bind_some, hc]
  cases c with
  | fault =>
    dsimp only
    rw [writeFault_eq, writeBuffer_isSome_iff, length_faults, Near]
    unfold loopTurns
    split_ifs <;> omega
  | refusal =>
    dsimp only
    rw [writeRefusal_eq, writeBuffer_isSome_iff, length_refusals, Near]
    unfold loopTurns
    split_ifs <;> omega
  | data =>
    dsimp only
    have helim : (if config.status.eliminated ≠ 0 then "ELIMI$".toList else []).length =
        6 * if config.status.eliminated ≠ 0 then 1 else 0 := by
      split_ifs <;> rfl
    rw [writeData_eq, writeBuffer_isSome_iff, List.length_append, List.length_append, length_faults,
      length_refusals, helim, Near]
    generalize (if config.status.eliminated ≠ 0 then 1 else 0) = elim
    unfold loopTurns
    split_ifs <;> omega
  | stop => exact iff_of_true ((writeBuffer_isSome_iff _ _).mpr (length_stopFrame_lt _)) trivial
  | bright | debug => exact iff_of_true rfl trivial
  | _ => exact iff_of_true ((writeBuffer_isSome_iff _ _).mpr (by decide)) trivial

/-! ## The totals -/

/-- What a command that counts is for: the driver then counts the totals of the program, and the
frames written make the difference. -/
def BringsToTotals (c : Command) (config : Configuration) (tokens : Tokens) (s : Counters) :
    Prop :=
  ∃ buffer t, moduleWrite config tokens s = some (.blockingWrite buffer, t) ∧
    (c ≠ .refusal → t.faltas = config.status.faults + config.status.touchs) ∧
    (c ≠ .fault → t.rehuses = config.status.refusals) ∧
    netFrames "FALT".toList buffer = t.faltas - s.faltas ∧
    netFrames "REHU".toList buffer = t.rehuses - s.rehuses

lemma netFrames_faults (bound target cur : ℤ) (rest : CString) :
    netFrames "FALT".toList ((countLoops "FALT".toList bound target cur).1 ++ rest) =
        (countLoops "FALT".toList bound target cur).2 - cur + netFrames "FALT".toList rest ∧
      netFrames "REHU".toList ((countLoops "FALT".toList bound target cur).1 ++ rest) =
        netFrames "REHU".toList rest :=
  ⟨netFrames_countLoops (by decide) bound target cur rest,
    netFrames_other (by decide) (by decide) (by decide) bound target cur rest⟩

lemma netFrames_refusals (bound target cur : ℤ) (rest : CString) :
    netFrames "REHU".toList ((countLoops "REHU".toList bound target cur).1 ++ rest) =
        (countLoops "REHU".toList bound target cur).2 - cur + netFrames "REHU".toList rest ∧
      netFrames "FALT".toList ((countLoops "REHU".toList bound target cur).1 ++ rest) =
        netFrames "FALT".toList rest :=
  ⟨netFrames_countLoops (by decide) bound target cur rest,
    netFrames_other (by decide) (by decide) (by decide) bound target cur rest⟩

lemma netFrames_nil (frame : CString) : netFrames frame [] = 0 := by
  simp [netFrames, frames]

/-- The frame for the elimination does not count. -/
lemma netFrames_elim (b : Prop) [Decidable b] :
    netFrames "FALT".toList (if b then "ELIMI$".toList else []) = 0 ∧
      netFrames "REHU".toList (if b then "ELIMI$".toList else []) = 0 := by
  split_ifs
  · decide
  · exact ⟨netFrames_nil _, netFrames_nil _⟩

/-- The frames written make the difference in any case: what is left is the room in the buffer and
the counters. -/
lemma bringsToTotals_iff_of_write {c : Command} {config : Configuration} {tokens : Tokens}
    {s t : Counters} {buffer : CString} (hwrite : moduleWrite config tokens s = writeBuffer buffer t)
    (hfaults : netFrames "FALT".toList buffer = t.faltas - s.faltas)
    (hrefusals : netFrames "REHU".toList buffer = t.rehuses - s.rehuses) :
    BringsToTotals c config tokens s ↔ (moduleWrite config tokens s).isSome = true ∧
      (c ≠ .refusal → t.faltas = config.status.faults + config.status.touchs) ∧
      (c ≠ .fault → t.rehuses = config.status.refusals) := by
  constructor
  · rintro ⟨buffer', t', h, hfaltas, hrehuses, -⟩
    obtain ⟨-, rfl⟩ := writeBuffer_eq_some (hwrite ▸ h)
    exact ⟨Option.isSome_of_mem h, hfaltas, hrehuses⟩
  · rintro ⟨hsome, hfaltas, hrehuses⟩
    refine ⟨buffer, t, ?_, hfaltas, hrehuses, hfaults, hrefusals⟩
    rw [hwrite, writeBuffer_isSome_iff] at hsome
    rw [hwrite, writeBuffer, if_pos hsome]

/-- **When the chronometer gets the totals.** After a `refusal` or a `data` always, as long as the
frames fit the buffer; after a `fault` not if the driver counts as many faults as the program or
more, but fewer than the faults and the touches. -/
theorem bringsToTotals_iff {c : Command} (hcounts : c = .fault ∨ c = .refusal ∨ c = .data)
    {config : Configuration} {tokens : Tokens} {word : CString} (hword : tokens[1]? = some word)
    (hc : findCommand (toLower word) = some c) (htouchs : 0 ≤ config.status.touchs)
    (s : Counters) :
    BringsToTotals c config tokens s ↔ Near config.status s c ∧
      (c = .fault → ¬ (config.status.faults ≤ s.faltas ∧
        s.faltas < config.status.faults + config.status.touchs)) := by
  have hroom : (moduleWrite config tokens s).isSome = true ↔ Near config.status s c :=
    moduleWrite_isSome_iff hword hc s
  have hreaches (frame : CString) (target cur : ℤ) :
      (countLoops frame target target cur).2 = target :=
    (countLoops_cur_eq_iff frame le_rfl cur).mpr (by omega)
  rcases hcounts with rfl | rfl | rfl
  · have hwrite : moduleWrite config tokens s = writeFault config.status s := by
      simp [moduleWrite, hword, hc]
    rw [writeFault_eq] at hwrite
    dsimp only at hwrite
    obtain ⟨hown, hother⟩ := netFrames_faults config.status.faults
      (config.status.faults + config.status.touchs) s.faltas []
    rw [List.append_nil] at hown hother
    have hbound : config.status.faults ≤ config.status.faults + config.status.touchs := by omega
    rw [bringsToTotals_iff_of_write hwrite (hown.trans (by rw [netFrames_nil, add_zero]))
      (hother.trans (by rw [netFrames_nil, sub_self])), hroom]
    dsimp only
    rw [countLoops_cur_eq_iff _ hbound]
    simp
  · have hwrite : moduleWrite config tokens s = writeRefusal config.status s := by
      simp [moduleWrite, hword, hc]
    rw [writeRefusal_eq] at hwrite
    dsimp only at hwrite
    obtain ⟨hown, hother⟩ := netFrames_refusals config.status.refusals config.status.refusals
      s.rehuses []
    rw [List.append_nil] at hown hother
    rw [bringsToTotals_iff_of_write hwrite (hother.trans (by rw [netFrames_nil, sub_self]))
      (hown.trans (by rw [netFrames_nil, add_zero])), hroom]
    simp [hreaches]
  · have hwrite : moduleWrite config tokens s = writeData config.status s := by
      simp [moduleWrite, hword, hc]
    rw [writeData_eq] at hwrite
    dsimp only at hwrite
    rw [List.append_assoc] at hwrite
    obtain ⟨hfaultEnd, hrefusalEnd⟩ := netFrames_elim (config.status.eliminated ≠ 0)
    obtain ⟨hfaults, hfaultsOther⟩ := netFrames_faults
      (config.status.faults + config.status.touchs) (config.status.faults + config.status.touchs)
      s.faltas ((countLoops "REHU".toList config.status.refusals config.status.refusals
        s.rehuses).1 ++ if config.status.eliminated ≠ 0 then "ELIMI$".toList else [])
    obtain ⟨hrefusals, hrefusalsOther⟩ := netFrames_refusals config.status.refusals
      config.status.refusals s.rehuses
      (if config.status.eliminated ≠ 0 then "ELIMI$".toList else [])
    rw [hrefusalsOther, hfaultEnd, add_zero] at hfaults
    rw [hrefusals, hrefusalEnd, add_zero] at hfaultsOther
    rw [bringsToTotals_iff_of_write hwrite hfaults hfaultsOther, hroom]
    simp [hreaches]

/-- The first fault. -/
theorem bringsToTotals_iff_first_fault :
    BringsToTotals .fault { defaultOptions with status.faults := 1 }
        ["console".toList, "fault".toList, "+".toList] .zero ↔
      Near { defaultOptions.status with faults := 1 } .zero .fault ∧
        (Command.fault = .fault → ¬ ((1 : ℤ) ≤ 0 ∧ (0 : ℤ) < 1 + 0)) :=
  bringsToTotals_iff (.inl rfl) rfl (by decide) (by decide) .zero

/-- With a fault and a touch of which the driver has counted one, a `fault` changes nothing. -/
theorem fault_not_shown :
    ¬ ∀ (c : Command) (config : Configuration) (tokens : Tokens) (word : CString) (s : Counters),
      c = .fault ∨ c = .refusal ∨ c = .data → tokens[1]? = some word →
      findCommand (toLower word) = some c → 0 ≤ config.status.faults →
      0 ≤ config.status.touchs → 0 ≤ config.status.refusals → BringsToTotals c config tokens s := by
  intro h
  obtain ⟨buffer, t, hwrite, hfaltas, -⟩ :=
    h .fault { defaultOptions with status.faults := 1, status.touchs := 1 }
      ["console".toList, "fault".toList, "+".toList] "fault".toList ⟨1, 0⟩ (.inl rfl) rfl
      (by decide) (by decide) (by decide) (by decide)
  cases hwrite
  exact absurd (hfaltas (by decide)) (by decide)

/-! ## The room in the buffer along a run -/

/-- The call of `module_write` a line leads to: the command, and the configuration and the tokens
the driver finds. -/
def writeCall (config : Configuration) (datagram : List Char) :
    Option (Command × Configuration × Tokens) := do
  match ← mainFront config (← receive datagram) with
  | .answered _ _ => none
  | .dispatch command tokens config =>
    match serialCall command tokens with
    | some (.moduleWrite tokens _) => some (command, config, tokens)
    | _ => none

def World.call (s : World) (input : WorldInput) : Option (Command × Configuration × Tokens) :=
  (s.taken input).bind (writeCall s.config)

lemma writeCall_spec {config config' : Configuration} {datagram : List Char} {c : Command}
    {tokens : Tokens} (h : writeCall config datagram = some (c, config', tokens)) :
    ∃ buffer sent ntokens, receive datagram = some buffer ∧
      mainFront config buffer = some (.dispatch c sent config') ∧
      serialCall c sent = some (.moduleWrite tokens ntokens) := by
  obtain ⟨buffer, hreceive, h⟩ := Option.bind_eq_some_iff.mp h
  obtain ⟨front, hfront, h⟩ := Option.bind_eq_some_iff.mp h
  rcases front with ⟨response, answered⟩ | ⟨command, sent, dispatched⟩
  · cases h
  · rcases hcall : serialCall command sent with - | (res | ⟨tokens', ntokens⟩) <;>
      simp only [hcall] at h
    · cases h
    · cases h
    · cases h
      exact ⟨buffer, sent, ntokens, hreceive, hfront, hcall⟩

/-- The driver finds the word of the command in its place. -/
lemma writeCall_word {config config' : Configuration} {datagram : List Char} {c : Command}
    {tokens : Tokens} (h : writeCall config datagram = some (c, config', tokens)) :
    tokens[1]? = some c.cmd := by
  obtain ⟨buffer, sent, ntokens, -, hfront, hcall⟩ := writeCall_spec h
  obtain ⟨source, args, rfl⟩ := parseLine_command (mainFront_dispatch hfront).1
  exact serialCall_word hcall

/-- A line that leads to a call makes it. -/
theorem handleLine_of_call {s : World} {datagram : List Char} {c : Command}
    {config : Configuration} {tokens : Tokens}
    (h : writeCall s.config datagram = some (c, config, tokens)) :
    handleLine s datagram = (moduleWrite config tokens s.counters).map fun r =>
      { s with config, counters := r.2, display := r.1.shownOn s.display } := by
  obtain ⟨buffer, sent, ntokens, hreceive, hfront, hcall⟩ := writeCall_spec h
  simp only [handleLine, hreceive, hfront, hcall, Option.bind_eq_bind, Option.bind_some,
    Option.pure_def, Option.map_eq_bind]
  rfl

/-- The frames of the call, if the input leads to one, fit the buffer with the terminator. -/
def WritesFit (s : World) (input : WorldInput) : Prop :=
  ∀ c config tokens, s.call input = some (c, config, tokens) →
    (moduleWrite config tokens s.counters).isSome = true

/-- The call, if the input leads to one, finds the counts near enough. -/
def CountsNear (s : World) (input : WorldInput) : Prop :=
  ∀ c config tokens, s.call input = some (c, config, tokens) → Near config.status s.counters c

lemma writesFit_step_iff (s : World) (input : WorldInput) :
    WritesFit s input ↔ CountsNear s input := by
  refine forall_congr' fun c => forall_congr' fun config => forall_congr' fun tokens => ?_
  refine forall_congr' fun hcall => ?_
  obtain ⟨datagram, -, hcall⟩ := Option.bind_eq_some_iff.mp hcall
  exact moduleWrite_isSome_iff (writeCall_word hcall) (findCommand_toLower_cmd c) s.counters

/-- **The buffer of the Digican driver.** For every sequence of lines, events and frames: no call
of `module_write` runs past the end of its buffer if and only if none finds the counts it has to
bring together more than 170 frames apart. -/
theorem writesFit_iff (jsonCreate : JsonCreate) (inputs : List WorldInput) :
    AtEach (worldStep jsonCreate) WritesFit .start inputs ↔
      AtEach (worldStep jsonCreate) CountsNear .start inputs :=
  atEach_congr writesFit_step_iff

/-- 200 faults at once are 1200 characters. -/
theorem faults_overflow :
    ¬ ∀ (jsonCreate : JsonCreate) (inputs : List WorldInput),
      AtEach (worldStep jsonCreate) WritesFit .start inputs := by
  intro h
  have hcall : World.start.call (.line "console fault 200".toList) = some (.fault,
      { defaultOptions with status.faults := 200 },
      ["console".toList, "fault".toList, "200".toList]) := by decide
  have hfits := (h (fun _ _ => none) [.line "console fault 200".toList]).1 _ _ _ hcall
  have hnear := (moduleWrite_isSome_iff (c := .fault) rfl (by decide) Counters.zero).mp hfits
  exact absurd (show (200 : ℤ) + 0 - 0 ≤ 170 from hnear) (by decide)

end Digican

end SerialChrono
