import SerialChrono.Digican.Totals

/-!
# The frames of the Digican chronometer (`digican.c`)

`module_read` takes whatever has come within its half second for one frame: it compares the
beginning of the block and gives one line.  `allTold_iff` says that main hears of every frame of a
block if and only if there is only one in it (and its number fits an `int`).

Alone, the frame `module_write` makes for the end of a run is read back as the time of the run, to
the hundredth (`stop_roundtrip`).
-/

namespace SerialChrono

open CText

namespace Digican

/-! ## The frames -/

/-- A number in decimal digits. -/
abbrev Digits := { digits : CString // digits ≠ [] ∧ ∀ c ∈ digits, c.isDigit = true }

/-- What the chronometer tells in a frame. -/
inductive DeviceFrame
  | start
  | stop (cents : Digits)
  | reset
  | down
  | elim

def DeviceFrame.text : DeviceFrame → CString
  | .start => "START$".toList
  | .stop cents => "PARAR".toList ++ (cents.1 ++ "$".toList)
  | .reset => "RESET$".toList
  | .down => "INICI$".toList
  | .elim => "ELIMI$".toList

lemma DeviceFrame.text_stop (cents : Digits) :
    (DeviceFrame.stop cents).text = "PARAR".toList ++ (cents.1 ++ "$".toList) := rfl

/-- The command a frame is about. -/
def DeviceFrame.command : DeviceFrame → Command
  | .start => .start
  | .stop _ => .stop
  | .reset => .reset
  | .down => .down
  | .elim => .elim

def DeviceFrame.args : DeviceFrame → Tokens
  | .start => ["0".toList]
  | .stop cents => [printInt (10 * textNat cents.1)]
  | .reset | .down | .elim => []

/-- The command with its tokens. -/
def DeviceFrame.told (f : DeviceFrame) : ParsedLine :=
  .command f.command (scSerial :: f.command.cmd :: f.args)

/-- The thousandths of a second fit an `int`. -/
def DeviceFrame.Fits : DeviceFrame → Prop
  | .stop cents => 10 * textNat cents.1 ≤ 2147483647
  | _ => True

/-- What main takes of the text `module_read` leaves. -/
def mainTakes (text : CString) : List (Option ParsedLine) :=
  (serialLine text).toList.map fun line => (receive line).bind parseLine

/-- Main hears of every frame of a block that is read at once, in its place. -/
def AllTold (frames : List DeviceFrame) : Prop :=
  ∃ text, moduleRead readLength (some (frames.map DeviceFrame.text).flatten) = some text ∧
    mainTakes text = frames.map fun f => some f.told

lemma length_mainTakes (text : CString) : (mainTakes text).length ≤ 1 := by
  unfold mainTakes
  rw [List.length_map]
  cases serialLine text <;> simp

/-! ## The first frame of a block -/

/-- The text that `module_read` makes of a frame, whatever follows it. -/
def DeviceFrame.reply : DeviceFrame → Option CString
  | .start => some "start 0\n".toList
  | .stop cents => (stopText cents.1).map (·.take (readLength - 1))
  | .reset => some "reset\n".toList
  | .down => some "down\n".toList
  | .elim => some "elim\n".toList

lemma DeviceFrame.reply_stop (cents : Digits) :
    (DeviceFrame.stop cents).reply = (stopText cents.1).map (·.take (readLength - 1)) := rfl

lemma atoi_cents (cents : Digits) (rest : CString) :
    atoi (cents.1 ++ '$' :: rest) = atoi cents.1 := by
  have hend : EndsNumber ('$' :: rest) := endsNumber_cons.mpr (by decide)
  have hwhole := textInt_digits_append cents.2.1 cents.2.2 hend
  have halone := textInt_digits_append cents.2.1 cents.2.2 endsNumber_nil
  rw [List.append_nil] at halone
  unfold atoi strtol
  rw [hwhole, halone]

lemma nul_notMem_text (f : DeviceFrame) : '\x00' ∉ f.text := by
  cases f with
  | stop cents =>
    simp only [DeviceFrame.text_stop, List.mem_append, not_or]
    exact ⟨by decide, fun hmem => absurd (cents.2.2 _ hmem) (by decide), by decide⟩
  | _ => decide

/-- A frame does not begin with a word that begins otherwise, whatever follows it. -/
lemma not_prefix_text (f : DeviceFrame) (word rest : CString) (hne : word ≠ [])
    (hhead : f.text.head? ≠ word.head?) : ¬ word <+: f.text ++ rest := by
  have htext : f.text ≠ [] := by cases f <;> exact List.cons_ne_nil _ _
  refine not_prefix_of_head hne ?_
  rwa [List.head?_append_of_ne_nil _ htext]

/-- **The rest of the block is lost.** -/
theorem moduleRead_frame (f : DeviceFrame) {rest : CString} (h : (f.text ++ rest).length < 1024) :
    moduleRead readLength (some (f.text ++ rest)) = f.reply := by
  rw [moduleRead, if_pos h]
  dsimp only
  rw [cstr, takeWhile_ne_append (nul_notMem_text f)]
  generalize rest.takeWhile (· ≠ '\x00') = rest
  have hnot := not_prefix_text f
  cases f with
  | start =>
    rw [if_pos (show "START".toList <+: DeviceFrame.start.text ++ rest from ⟨'$' :: rest, rfl⟩)]
    rfl
  | stop cents =>
    have hsplit : (DeviceFrame.stop cents).text ++ rest =
        "PARAR".toList ++ (cents.1 ++ '$' :: rest) := by simp [DeviceFrame.text_stop]
    have hdrop : ("PARAR".toList ++ (cents.1 ++ '$' :: rest)).drop 5 =
        cents.1 ++ '$' :: rest := rfl
    have hhead : (DeviceFrame.stop cents).text.head? = some 'P' := rfl
    rw [if_neg (hnot "START".toList _ (by decide) (by rw [hhead]; decide)), hsplit,
      if_pos (List.prefix_append _ _), hdrop]
    rw [DeviceFrame.reply_stop]
    unfold stopText
    rw [atoi_cents cents rest]
  | reset =>
    rw [if_neg (hnot "START".toList _ (by decide) (by decide)),
      if_neg (hnot "PARAR".toList _ (by decide) (by decide)),
      if_pos (show "RESET".toList <+: DeviceFrame.reset.text ++ rest from ⟨'$' :: rest, rfl⟩)]
    rfl
  | down =>
    rw [if_neg (hnot "START".toList _ (by decide) (by decide)),
      if_neg (hnot "PARAR".toList _ (by decide) (by decide)),
      if_neg (hnot "RESET".toList _ (by decide) (by decide)),
      if_pos (show "INICI".toList <+: DeviceFrame.down.text ++ rest from ⟨'$' :: rest, rfl⟩)]
    rfl
  | elim =>
    rw [if_neg (hnot "START".toList _ (by decide) (by decide)),
      if_neg (hnot "PARAR".toList _ (by decide) (by decide)),
      if_neg (hnot "RESET".toList _ (by decide) (by decide)),
      if_neg (hnot "INICI".toList _ (by decide) (by decide)),
      if_pos (show "ELIMI".toList <+: DeviceFrame.elim.text ++ rest from ⟨'$' :: rest, rfl⟩)]
    rfl

/-! ## What main hears -/

/-- The number of a frame is read as it is, unless it does not fit. -/
lemma atoi_cents_eq_iff (cents : Digits) :
    IsInt (10 * atoi cents.1) ∧ atoi cents.1 = textNat cents.1 ↔
      10 * textNat cents.1 ≤ 2147483647 := by
  have hread := textInt_digits_append cents.2.1 cents.2.2 endsNumber_nil
  rw [List.append_nil] at hread
  constructor
  · rintro ⟨⟨-, hint⟩, heq⟩
    omega
  · intro hfits
    have hatoi : atoi cents.1 = textNat cents.1 := by
      rw [atoi, strtol_of_range, hread, toInt32_eq_self]
      all_goals
        try rw [hread]
        try simp only [longMin, longMax]
        omega
    exact ⟨by rw [hatoi, IsInt]; omega, hatoi⟩

/-- The frame for the end of a run, alone. -/
lemma mainTakes_stopText {number text : CString} (h : stopText number = some text) :
    mainTakes text =
      [some (.command .stop [scSerial, Command.stop.cmd, printInt (10 * atoi number)])] := by
  rw [mainTakes, (serialLine_stopText h).2, Option.toList_some, List.map_singleton,
    receive_stopLine (stopText_eq h).1, Option.bind_some, parseLine_stopLine]

/-- A frame alone. -/
lemma mainTakes_reply_iff (f : DeviceFrame) :
    (∃ text, f.reply = some text ∧ mainTakes text = [some f.told]) ↔ f.Fits := by
  cases f with
  | stop cents =>
    rw [DeviceFrame.Fits, ← atoi_cents_eq_iff]
    constructor
    · rintro ⟨text, hreply, htaken⟩
      obtain ⟨whole, hwhole, rfl⟩ := Option.map_eq_some_iff.mp hreply
      rw [(serialLine_stopText hwhole).1, mainTakes_stopText hwhole] at htaken
      have htext : printInt (10 * atoi cents.1) = printInt (10 * textNat cents.1) := by
        simpa [DeviceFrame.told, DeviceFrame.command, DeviceFrame.args] using htaken
      have heq := printInt_injective htext
      exact ⟨(stopText_eq hwhole).1, by omega⟩
    · rintro ⟨hint, heq⟩
      have hwhole : stopText cents.1 =
          some ("stop ".toList ++ printInt (10 * atoi cents.1) ++ "\n".toList) := if_pos hint
      refine ⟨_, by rw [DeviceFrame.reply_stop, hwhole, Option.map_some], ?_⟩
      rw [(serialLine_stopText hwhole).1, mainTakes_stopText hwhole, heq]
      rfl
  | start => exact iff_of_true ⟨_, rfl, by decide⟩ trivial
  | reset => exact iff_of_true ⟨_, rfl, by decide⟩ trivial
  | down => exact iff_of_true ⟨_, rfl, by decide⟩ trivial
  | elim => exact iff_of_true ⟨_, rfl, by decide⟩ trivial

/-- **Frames that arrive together.** Main hears of every frame of a block if and only if the block
is a single frame, whose number, if it ends a run, fits an `int` in thousandths of a second. -/
theorem allTold_iff {frames : List DeviceFrame} (hne : frames ≠ [])
    (hlength : (frames.map DeviceFrame.text).flatten.length < 1024) :
    AllTold frames ↔ ∃ f, frames = [f] ∧ f.Fits := by
  obtain ⟨f, rest, rfl⟩ := List.exists_cons_of_ne_nil hne
  have hread : moduleRead readLength (some ((f :: rest).map DeviceFrame.text).flatten) = f.reply :=
    moduleRead_frame f hlength
  unfold AllTold
  rw [hread]
  constructor
  · rintro ⟨text, hreply, htaken⟩
    have hone : rest = [] := by
      have hcount := length_mainTakes text
      rw [htaken, List.length_map, List.length_cons] at hcount
      exact List.eq_nil_of_length_eq_zero (by omega)
    subst hone
    exact ⟨f, rfl, (mainTakes_reply_iff f).mp ⟨text, hreply, htaken⟩⟩
  · rintro ⟨f', heq, hfits⟩
    obtain ⟨rfl, rfl⟩ := List.cons.inj heq
    exact (mainTakes_reply_iff f).mpr hfits

/-- A start alone, and a start with an elimination behind it. -/
theorem allTold_iff_alone :
    (AllTold [.start] ↔ ∃ f, [DeviceFrame.start] = [f] ∧ f.Fits) ∧
      (AllTold [.start, .elim] ↔ ∃ f, [DeviceFrame.start, .elim] = [f] ∧ f.Fits) :=
  ⟨allTold_iff (by simp) (by decide), allTold_iff (by simp) (by decide)⟩

/-- The elimination that comes together with a start is not heard of. -/
theorem second_frame_lost :
    ¬ ∀ frames : List DeviceFrame, frames ≠ [] →
      (frames.map DeviceFrame.text).flatten.length < 1024 → AllTold frames := by
  intro h
  have hall : AllTold [.start, .elim] := h _ (by simp) (by decide)
  obtain ⟨text, -, htaken⟩ := hall
  have hcount := length_mainTakes text
  rw [htaken] at hcount
  exact absurd hcount (by decide)

/-! ## The time of a run, there and back -/

/-- A number as `module_write` prints it. -/
def paddedCents (n : ℕ) : Digits :=
  ⟨(printNat n).leftpad 4 '0', by simp [List.leftpad, printNat_ne_nil],
    fun _ => isDigit_of_mem_leftpad⟩

lemma printInt4_natCast (n : ℕ) : printInt4 n = (paddedCents n).1 := by
  unfold printInt4
  rw [if_neg (by omega), Int.natAbs_natCast]
  rfl

/-- **The round trip of the stop.** What `module_write` sends for the end of a run is read back as
the time of the run without its last digit. -/
theorem stop_roundtrip {config : Configuration} {tokens : Tokens} {word : CString}
    (hword : tokens[1]? = some word) (hc : findCommand (toLower word) = some .stop)
    (hlow : 0 ≤ config.status.stopTime - config.status.startTime)
    (hhigh : config.status.stopTime - config.status.startTime ≤ 2147483640) (s : Counters) :
    ∃ cents : Digits,
      moduleWrite config tokens s = some (.blockingWrite (DeviceFrame.stop cents).text, s) ∧
      moduleRead readLength (some (DeviceFrame.stop cents).text) =
        some ("stop ".toList ++
          printInt (config.status.stopTime - config.status.startTime -
            (config.status.stopTime - config.status.startTime) % 10) ++ "\n".toList) := by
  generalize htime : config.status.stopTime - config.status.startTime = time at hlow hhigh
  obtain ⟨n, hn⟩ := Int.eq_ofNat_of_zero_le (show 0 ≤ time / 10 by omega)
  have hnumber : toInt32 (time.tdiv 10) = n := by
    rw [Int.tdiv_eq_ediv_of_nonneg hlow, toInt32_eq_self (by omega) (by omega), hn]
  have hframe : stopFrame config.status = (DeviceFrame.stop (paddedCents n)).text := by
    rw [stopFrame_eq, htime, hnumber, printInt4_natCast, List.append_assoc]
    rfl
  have hatoi : atoi (paddedCents n).1 = n := by
    have hread : textNat (paddedCents n).1 = n := textNat_leftpad 4 n
    have hfits := (atoi_cents_eq_iff (paddedCents n)).mpr (by omega)
    rw [hfits.2, hread]
  refine ⟨paddedCents n, ?_, ?_⟩
  · unfold moduleWrite
    simp only [hword, Option.bind_eq_bind, Option.bind_some, hc]
    rw [writeBuffer, if_pos (length_stopFrame_lt config.status), hframe]
  · have hlength : ((DeviceFrame.stop (paddedCents n)).text ++ []).length < 1024 := by
      rw [List.append_nil, ← hframe]
      exact length_stopFrame_lt config.status
    have hread := moduleRead_frame (.stop (paddedCents n)) hlength
    rw [List.append_nil] at hread
    have htext : stopText (paddedCents n).1 =
        some ("stop ".toList ++ printInt (time - time % 10) ++ "\n".toList) := by
      unfold stopText
      dsimp only
      rw [hatoi, if_pos (by unfold IsInt; omega), show 10 * (n : ℤ) = time - time % 10 by omega]
    rw [hread, DeviceFrame.reply_stop, htext, Option.map_some]
    exact congrArg some (serialLine_stopText htext).1

/-- A run of 12.345 seconds is read back as one of 12.34. -/
theorem stop_roundtrip_12345 :
    ∃ cents : Digits,
      moduleWrite { defaultOptions with status.startTime := 0, status.stopTime := 12345 }
          ["ac_server".toList, "stop".toList, "12345".toList] .zero =
        some (.blockingWrite (DeviceFrame.stop cents).text, .zero) ∧
      moduleRead readLength (some (DeviceFrame.stop cents).text) =
        some ("stop ".toList ++ printInt (12345 - 0 - (12345 - 0) % 10) ++ "\n".toList) :=
  stop_roundtrip rfl (by decide) (by decide) (by decide) .zero

end Digican

end SerialChrono
