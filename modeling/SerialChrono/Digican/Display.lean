import SerialChrono.Digican.Model
import SerialChrono.Events.Update

/-!
# What the Digican chronometer shows

The driver counts the faults and refusals along with the chronometer.  `follows_iff_along` says
when the two counts stay the same, for every order of lines, events and frames of the chronometer:
each write moves both in the same way (`moduleWrite_shown`), and a frame of the chronometer moves
neither, unless it tells of a reset.  The chronometer then shows no faults and no refusals; the
driver has to hear of it from main, but `serial_mgr_reset` keeps to itself what comes from the
serial port (`deliver_counters`).

What the chronometer sends and what a call of `module_read` finds are two things: the serial line may
join frames or cut them, and so the reads are any texts.
-/

namespace SerialChrono

open CText PartialRun

namespace Digican

/-! ## The display -/

/-- What a frame does to the counters shown. -/
def Counters.takeFrame (d : Counters) (frame : CString) : Counters :=
  if frame = "FALT+".toList then { d with faltas := d.faltas + 1 }
  else if frame = "FALT-".toList then { d with faltas := d.faltas - 1 }
  else if frame = "REHU+".toList then { d with rehuses := d.rehuses + 1 }
  else if frame = "REHU-".toList then { d with rehuses := d.rehuses - 1 }
  else if frame = "RESET".toList ∨ frame = "RELOJ".toList then .zero
  else d

/-- The frames in a text: each ends in `$`. -/
def frames (text : CString) : List CString := (text.splitOn '$').dropLast

/-- What a text does to the counters shown. -/
def Counters.takeText (d : Counters) (text : CString) : Counters := (frames text).foldl .takeFrame d

/-- What a call of `module_write` does to the counters shown. -/
def Written.shownOn (d : Counters) : Written → Counters
  | .returns _ => d
  | .blockingWrite buffer => d.takeText buffer

lemma frames_append {frame : CString} (h : '$' ∉ frame) (rest : CString) :
    frames (frame ++ '$' :: rest) = frame :: frames rest := by
  unfold frames
  rw [List.splitOn_append_cons_self_of_not_mem h,
    List.dropLast_cons_of_ne_nil (List.splitOn_ne_nil '$' rest)]

lemma takeText_append {frame : CString} (h : '$' ∉ frame) (rest : CString) (d : Counters) :
    d.takeText (frame ++ '$' :: rest) = (d.takeFrame frame).takeText rest := by
  unfold Counters.takeText
  rw [frames_append h, List.foldl_cons]

/-! ## The loops -/

/-- The turns of the loop that runs. -/
def loopTurns (bound target cur : ℤ) : ℕ :=
  if cur < bound then (target - cur).toNat else (cur - target).toNat

/-- The sign in the frames of the loop that runs. -/
def loopSign (bound cur : ℤ) : CString := if cur < bound then "+".toList else "-".toList

lemma countLoops_text (frame : CString) (bound target cur : ℤ) :
    (countLoops frame bound target cur).1 =
      (List.replicate (loopTurns bound target cur)
        ((frame ++ loopSign bound cur) ++ "$".toList)).flatten := by
  unfold countLoops loopTurns loopSign
  split_ifs <;> simp

lemma countLoops_cur (frame : CString) (bound target cur : ℤ) :
    (countLoops frame bound target cur).2 =
      if cur < bound then cur + loopTurns bound target cur
      else cur - loopTurns bound target cur := by
  unfold countLoops loopTurns
  split_ifs <;> rfl

lemma frames_replicate {frame : CString} (h : '$' ∉ frame) (n : ℕ) (rest : CString) :
    frames ((List.replicate n (frame ++ "$".toList)).flatten ++ rest) =
      List.replicate n frame ++ frames rest := by
  induction n with
  | zero => rfl
  | succ n ih =>
    have hfirst : (List.replicate (n + 1) (frame ++ "$".toList)).flatten ++ rest =
        frame ++ '$' :: ((List.replicate n (frame ++ "$".toList)).flatten ++ rest) := by
      rw [List.replicate_succ, List.flatten_cons, List.append_assoc, List.append_assoc]
      rfl
    rw [hfirst, frames_append h, ih, List.replicate_succ, List.cons_append]

lemma frames_countLoops {frame : CString} (h : '$' ∉ frame) (bound target cur : ℤ)
    (rest : CString) :
    frames ((countLoops frame bound target cur).1 ++ rest) =
      List.replicate (loopTurns bound target cur) (frame ++ loopSign bound cur) ++
        frames rest := by
  have hsign : '$' ∉ frame ++ loopSign bound cur := by
    rw [List.mem_append, not_or]
    refine ⟨h, ?_⟩
    unfold loopSign
    split_ifs <;> decide
  rw [countLoops_text, frames_replicate hsign]

/-- A frame repeated, where each one moves the counters from `f k` to `f (k + 1)`. -/
lemma takeFrame_replicate {frame : CString} {f : ℕ → Counters}
    (hf : ∀ k, (f k).takeFrame frame = f (k + 1)) (n : ℕ) :
    (List.replicate n frame).foldl .takeFrame (f 0) = f n := by
  induction n generalizing f with
  | zero => rfl
  | succ n ih =>
    rw [List.replicate_succ, List.foldl_cons, hf]
    exact ih fun k => hf (k + 1)

/-- The loops show what they count. -/
lemma takeText_countLoops {frame : CString} (hframe : '$' ∉ frame) (set : ℤ → Counters)
    (hup : ∀ n, (set n).takeFrame (frame ++ "+".toList) = set (n + 1))
    (hdown : ∀ n, (set n).takeFrame (frame ++ "-".toList) = set (n - 1))
    (bound target cur : ℤ) (rest : CString) :
    (set cur).takeText ((countLoops frame bound target cur).1 ++ rest) =
      (set (countLoops frame bound target cur).2).takeText rest := by
  unfold Counters.takeText
  rw [frames_countLoops hframe, List.foldl_append, countLoops_cur]
  generalize loopTurns bound target cur = n
  unfold loopSign
  split_ifs
  · have hstep : ∀ k : ℕ, (set (cur + k)).takeFrame (frame ++ "+".toList) =
        set (cur + (k + 1 : ℕ)) := by
      intro k
      rw [Nat.cast_succ, ← add_assoc]
      exact hup (cur + k)
    have hrun := takeFrame_replicate hstep n
    rw [Nat.cast_zero, add_zero] at hrun
    rw [hrun]
  · have hstep : ∀ k : ℕ, (set (cur - k)).takeFrame (frame ++ "-".toList) =
        set (cur - (k + 1 : ℕ)) := by
      intro k
      rw [Nat.cast_succ, ← sub_sub]
      exact hdown (cur - k)
    have hrun := takeFrame_replicate hstep n
    rw [Nat.cast_zero, sub_zero] at hrun
    rw [hrun]

lemma takeText_faltas (bound target : ℤ) (d : Counters) (rest : CString) :
    d.takeText ((countLoops "FALT".toList bound target d.faltas).1 ++ rest) =
      Counters.takeText
        { d with faltas := (countLoops "FALT".toList bound target d.faltas).2 } rest :=
  takeText_countLoops (by decide) (fun n => { d with faltas := n }) (fun _ => rfl)
    (fun _ => rfl) bound target d.faltas rest

lemma takeText_rehuses (bound target : ℤ) (d : Counters) (rest : CString) :
    d.takeText ((countLoops "REHU".toList bound target d.rehuses).1 ++ rest) =
      Counters.takeText
        { d with rehuses := (countLoops "REHU".toList bound target d.rehuses).2 } rest :=
  takeText_countLoops (by decide) (fun n => { d with rehuses := n }) (fun _ => rfl)
    (fun _ => rfl) bound target d.rehuses rest

/-! ## A write -/

lemma stopFrame_eq (status : Status) :
    stopFrame status = "PARAR".toList ++
      printInt4 (toInt32 ((status.stopTime - status.startTime).tdiv 10)) ++ "$".toList := rfl

/-- A number has no `$`. -/
lemma notMem_stopFrame (status : Status) :
    ∃ number, '$' ∉ number ∧ stopFrame status = "PARAR".toList ++ number ++ "$".toList := by
  refine ⟨_, ?_, stopFrame_eq status⟩
  have hpad : ∀ width n : ℕ, '$' ∉ (printNat n).leftpad width '0' :=
    fun _ _ h => absurd (isDigit_of_mem_leftpad h) (by decide)
  unfold printInt4
  split_ifs
  · rw [List.mem_cons, not_or]
    exact ⟨by decide, hpad _ _⟩
  · exact hpad _ _

/-- The frame for the end of a run is none of those that count. -/
lemma takeText_stopFrame (status : Status) (d : Counters) : d.takeText (stopFrame status) = d := by
  obtain ⟨number, hnumber, hframe⟩ := notMem_stopFrame status
  have hword : '$' ∉ "PARAR".toList ++ number := by
    rw [List.mem_append, not_or]
    exact ⟨by decide, hnumber⟩
  rw [hframe]
  refine (takeText_append hword [] d).trans ?_
  rfl

lemma takeText_writeBuffer {buffer : CString} {s t d : Counters} {result : Written}
    (h : writeBuffer buffer s = some (result, t)) (hd : d.takeText buffer = s) :
    result.shownOn d = t := by
  unfold writeBuffer at h
  split_ifs at h
  cases h
  exact hd

lemma writeFault_eq (status : Status) (s : Counters) :
    writeFault status s =
      let loops := countLoops "FALT".toList status.faults (status.faults + status.touchs) s.faltas
      writeBuffer loops.1 { s with faltas := loops.2 } := rfl

lemma writeRefusal_eq (status : Status) (s : Counters) :
    writeRefusal status s =
      let loops := countLoops "REHU".toList status.refusals status.refusals s.rehuses
      writeBuffer loops.1 { s with rehuses := loops.2 } := rfl

lemma writeData_eq (status : Status) (s : Counters) :
    writeData status s =
      let ft := status.faults + status.touchs
      let faults := countLoops "FALT".toList ft ft s.faltas
      let refusals := countLoops "REHU".toList status.refusals status.refusals s.rehuses
      writeBuffer (faults.1 ++ refusals.1 ++ if status.eliminated ≠ 0 then "ELIMI$".toList else [])
        ⟨faults.2, refusals.2⟩ := rfl

lemma writeFault_shown {status : Status} {s t : Counters} {result : Written}
    (h : writeFault status s = some (result, t)) : result.shownOn s = t := by
  rw [writeFault_eq] at h
  refine takeText_writeBuffer h ?_
  have htaken := takeText_faltas status.faults (status.faults + status.touchs) s []
  rwa [List.append_nil] at htaken

lemma writeRefusal_shown {status : Status} {s t : Counters} {result : Written}
    (h : writeRefusal status s = some (result, t)) : result.shownOn s = t := by
  rw [writeRefusal_eq] at h
  refine takeText_writeBuffer h ?_
  have htaken := takeText_rehuses status.refusals status.refusals s []
  rwa [List.append_nil] at htaken

lemma writeData_shown {status : Status} {s t : Counters} {result : Written}
    (h : writeData status s = some (result, t)) : result.shownOn s = t := by
  rw [writeData_eq] at h
  refine takeText_writeBuffer h ?_
  rw [List.append_assoc, takeText_faltas]
  refine (takeText_rehuses _ _ _ _).trans ?_
  split_ifs <;> rfl

/-- **A write moves both counts in the same way.** What `module_write` leaves in its counters is
what the chronometer shows, if it showed them before. -/
theorem moduleWrite_shown {config : Configuration} {tokens : Tokens} {s t : Counters}
    {result : Written} (h : moduleWrite config tokens s = some (result, t)) :
    result.shownOn s = t := by
  obtain ⟨cmd, -, h⟩ := Option.bind_eq_some_iff.mp h
  rcases hcmd : findCommand (toLower cmd) with - | command
  · simp only [hcmd] at h
    cases h
    rfl
  · simp only [hcmd] at h
    cases command with
    | stop => exact takeText_writeBuffer h (takeText_stopFrame config.status s)
    | fault => exact writeFault_shown h
    | refusal => exact writeRefusal_shown h
    | data => exact writeData_shown h
    | bright | debug =>
      cases h
      rfl
    | _ => exact takeText_writeBuffer h rfl

/-! ## The program and the chronometer -/

/-- The driver, what the chronometer shows and the main thread. -/
structure World where
  config : Configuration
  counters : Counters
  display : Counters
  /-- The lines of the serial thread that main has not taken, each with what it was made of. -/
  pending : List (Option (List Char) × CString)

/-- A line that main takes, the data of an event, frames that the chronometer sends, what the serial
thread reads (`none` if the reading fails), or main taking the next line of the serial thread. -/
inductive WorldInput
  | line (datagram : List Char)
  | event (datastr : CString)
  | sends (text : List Char)
  | frame (received : Option (List Char))
  | deliver

/-- Main handles a line: the handler of `main_mgr`, and then that of the serial manager. -/
def handleLine (s : World) (datagram : List Char) : Option World := do
  let buffer ← receive datagram
  match ← mainFront s.config buffer with
  | .answered _ config => return { s with config }
  | .dispatch command tokens config =>
    match serialCall command tokens with
    | some (.moduleWrite tokens _) => do
      let (result, counters) ← moduleWrite config tokens s.counters
      return { s with config, counters, display := result.shownOn s.display }
    | _ => return { s with config }

/-- One of the frames of a text reports a reset. -/
def isReset (text : List Char) : Bool :=
  (text.splitOn '$').any fun frame => "RESET".toList.isPrefixOf frame

/-- The serial thread reads something and sends a line to main. -/
def readFrame (s : World) (received : Option (List Char)) : Option World := do
  let text ← moduleRead readLength received
  return { s with
    pending := s.pending ++ ((serialLine text).map fun line => (received, line)).toList }

def worldStep (jsonCreate : JsonCreate) (s : World) : WorldInput → Option World
  | .line datagram => handleLine s datagram
  | .event datastr => do
    let (config, _, _) ← processEventData libcNull jsonCreate s.config datastr 0
    return { s with config }
  | .sends text => some { s with display := if isReset text then .zero else s.display }
  | .frame received => readFrame s received
  | .deliver =>
    match s.pending with
    | [] => none
    | (_, line) :: pending => handleLine { s with pending } line

/-- The program after its start. -/
def World.start : World := ⟨defaultOptions, .zero, .zero, []⟩

/-- Main takes the first of the lines that wait. -/
lemma deliver_spec {jsonCreate : JsonCreate} {s t : World}
    (h : worldStep jsonCreate s .deliver = some t) :
    ∃ received line pending, s.pending = (received, line) :: pending ∧
      handleLine { s with pending } line = some t := by
  rcases hpending : s.pending with - | ⟨⟨received, line⟩, pending⟩ <;>
    simp only [worldStep, hpending] at h
  · cases h
  · exact ⟨received, line, pending, rfl, h⟩

/-! ## The counts along a run -/

/-- The driver counts what the chronometer shows. -/
def World.Follows (s : World) : Prop := s.counters = s.display

/-- When the chronometer resets itself, no faults and no refusals are counted. -/
def WorldInput.Unnoticed (s : World) : WorldInput → Prop
  | .sends text => isReset text → s.counters = .zero
  | _ => True

lemma follows_handleLine {s t : World} {datagram : List Char} (hs : s.Follows)
    (h : handleLine s datagram = some t) : t.Follows := by
  obtain ⟨buffer, -, h⟩ := Option.bind_eq_some_iff.mp h
  obtain ⟨front, -, h⟩ := Option.bind_eq_some_iff.mp h
  rcases front with ⟨response, config⟩ | ⟨command, tokens, config⟩
  · cases h
    exact hs
  · rcases hcall : serialCall command tokens with - | (res | ⟨tokens', ntokens⟩) <;>
      simp only [hcall] at h
    · cases h
      exact hs
    · cases h
      exact hs
    · obtain ⟨⟨result, counters⟩, hwrite, h⟩ := Option.bind_eq_some_iff.mp h
      cases h
      have hshown := moduleWrite_shown hwrite
      rw [hs] at hshown
      exact hshown.symm

lemma follows_sends_iff {s : World} (hs : s.Follows) (text : List Char) :
    World.Follows { s with display := if isReset text then .zero else s.display } ↔
      (isReset text → s.counters = .zero) := by
  unfold World.Follows at hs ⊢
  dsimp only
  split_ifs with hreset
  · exact ⟨fun h _ => h, fun h => h hreset⟩
  · exact iff_of_true hs fun h => absurd h hreset

lemma follows_step_iff {jsonCreate : JsonCreate} {s t : World} {input : WorldInput}
    (hs : s.Follows) (h : worldStep jsonCreate s input = some t) :
    t.Follows ↔ input.Unnoticed s := by
  cases input with
  | line datagram => exact iff_of_true (follows_handleLine hs h) trivial
  | event datastr =>
    obtain ⟨r, -, h⟩ := Option.bind_eq_some_iff.mp h
    cases h
    exact iff_of_true hs trivial
  | sends text =>
    cases h
    exact follows_sends_iff hs text
  | frame received =>
    obtain ⟨text, -, h⟩ := Option.bind_eq_some_iff.mp h
    cases h
    exact iff_of_true hs trivial
  | deliver =>
    obtain ⟨received, line, pending, -, hline⟩ := deliver_spec h
    exact iff_of_true (follows_handleLine (show World.Follows { s with pending } from hs) hline)
      trivial

/-- **The Digican counters.** For every sequence of lines from any source, of events, of frames of
the chronometer, of reads and of lines of the serial thread that main takes: the counters of the
driver are those the chronometer shows in every state if and only if the chronometer never resets
itself while faults or refusals are counted. -/
theorem follows_iff_along (jsonCreate : JsonCreate) (inputs : List WorldInput) :
    Always (worldStep jsonCreate) World.Follows .start inputs ↔
      Along (worldStep jsonCreate) (fun s input => input.Unnoticed s) .start inputs :=
  always_iff_along_of_step (fun _ _ _ hs h => follows_step_iff hs h) rfl

/-! ## The lines of the chronometer -/

/-- The lines that wait are those the serial thread has made. -/
def World.Made (s : World) : Prop :=
  ∀ sent ∈ s.pending, ∃ text, moduleRead readLength sent.1 = some text ∧
    serialLine text = some sent.2

/-- A line does to the configuration what its `main_mgr` handler does, and to the lines that wait
nothing. -/
lemma handleLine_frame {s t : World} {datagram : List Char}
    (h : handleLine s datagram = some t) :
    t.pending = s.pending ∧ ∃ buffer front, receive datagram = some buffer ∧
      mainFront s.config buffer = some front ∧ t.config = front.config := by
  obtain ⟨buffer, hreceive, h⟩ := Option.bind_eq_some_iff.mp h
  obtain ⟨front, hfront, h⟩ := Option.bind_eq_some_iff.mp h
  rcases front with ⟨response, config⟩ | ⟨command, tokens, config⟩
  · cases h
    exact ⟨rfl, buffer, _, hreceive, hfront, rfl⟩
  · rcases hcall : serialCall command tokens with - | (res | ⟨tokens', ntokens⟩) <;>
      simp only [hcall] at h
    · cases h
      exact ⟨rfl, buffer, _, hreceive, hfront, rfl⟩
    · cases h
      exact ⟨rfl, buffer, _, hreceive, hfront, rfl⟩
    · obtain ⟨r, -, h⟩ := Option.bind_eq_some_iff.mp h
      cases h
      exact ⟨rfl, buffer, _, hreceive, hfront, rfl⟩

lemma made_step {jsonCreate : JsonCreate} {s t : World} {input : WorldInput} (hs : s.Made)
    (h : worldStep jsonCreate s input = some t) : t.Made := by
  cases input with
  | line datagram =>
    intro sent hsent
    rw [(handleLine_frame h).1] at hsent
    exact hs sent hsent
  | event datastr =>
    obtain ⟨r, -, h⟩ := Option.bind_eq_some_iff.mp h
    cases h
    exact hs
  | sends text =>
    cases h
    exact hs
  | frame received =>
    obtain ⟨text, htext, h⟩ := Option.bind_eq_some_iff.mp h
    cases h
    intro sent hsent
    rcases List.mem_append.mp hsent with hold | hnew
    · exact hs sent hold
    · obtain ⟨line, hline, rfl⟩ := Option.map_eq_some_iff.mp (Option.mem_toList.mp hnew)
      exact ⟨text, htext, hline⟩
  | deliver =>
    obtain ⟨received, line, pending, hpending, hline⟩ := deliver_spec h
    intro sent hsent
    rw [(handleLine_frame hline).1] at hsent
    exact hs sent (hpending ▸ List.mem_cons_of_mem _ hsent)

lemma made_start : World.start.Made := fun sent hsent => by cases hsent

/-- A line of the serial thread reaches neither the driver nor the chronometer, whatever it
tells. -/
theorem deliver_counters {jsonCreate : JsonCreate} {s t : World} (hs : s.Made)
    (h : worldStep jsonCreate s .deliver = some t) :
    t.counters = s.counters ∧ t.display = s.display := by
  obtain ⟨received, line, pending, hpending, h⟩ := deliver_spec h
  obtain ⟨text, -, hline⟩ := hs (received, line) (hpending ▸ List.mem_cons_self)
  obtain ⟨buffer, hreceive, h⟩ := Option.bind_eq_some_iff.mp h
  obtain ⟨front, hfront, h⟩ := Option.bind_eq_some_iff.mp h
  rcases front with ⟨response, config⟩ | ⟨command, tokens, config⟩
  · cases h
    exact ⟨rfl, rfl⟩
  · have hown : fromSource scSerial tokens = true :=
      ownLine_driverLine (by decide) (by decide) hline buffer command tokens hreceive
        (mainFront_dispatch hfront).1
    rcases hcall : serialCall command tokens with - | call
    · simp only [hcall] at h
      cases h
      exact ⟨rfl, rfl⟩
    · obtain ⟨f, hf, rfl⟩ := Option.map_eq_some_iff.mp hcall
      rw [serialMgrEntries_own hf hown] at hcall
      simp only [hcall] at h
      cases h
      exact ⟨rfl, rfl⟩

/-- After a fault, the reset of the chronometer, reported and carried out, leaves a fault in the
counters of the driver. -/
theorem reset_unnoticed :
    ¬ ∀ (jsonCreate : JsonCreate) (inputs : List WorldInput),
      Always (worldStep jsonCreate) World.Follows .start inputs := by
  intro h
  let inputs : List WorldInput :=
    [.line "ac_server fault +".toList, .sends "RESET$".toList, .frame (some "RESET$".toList),
      .deliver]
  have hrun : (run (worldStep fun _ _ => none) .start inputs).map
      (fun s => (s.counters, s.display, s.pending.length)) = some (⟨1, 0⟩, .zero, 0) := by decide
  obtain ⟨s, hs, hend⟩ := Option.map_eq_some_iff.mp hrun
  simp only [Prod.mk.injEq] at hend
  obtain ⟨hcounters, hdisplay, -⟩ := hend
  have hfollows := (h (fun _ _ => none) inputs).of_run hs
  rw [World.Follows, hcounters, hdisplay] at hfollows
  exact absurd hfollows (by decide)

end Digican

end SerialChrono
