import SerialChrono.Digican.Display
import SerialChrono.MainSpec

/-!
# The time of a course

When a run ends the Digican tells how long it took, and `module_read` makes a `stop` of that.  But
the argument of a `stop` is a timestamp, and main takes the start from it.  The time of the course
is the one told where the last `start` was at zero, as those of the chronometer are;
`exact_iff_along` says that there is no other way, for every order of lines, events and frames.
-/

namespace SerialChrono

open CText PartialRun

namespace Digican

/-! ## The frame for the end of a run -/

/-- The hundredths of a second in a frame that ends a run: `PARAR` and a number, or a number
alone. -/
def frameCents (received : Option (List Char)) : Option ℤ :=
  received.bind fun bytes =>
    let frame := cstr bytes
    if "PARAR".toList <+: frame then some (atoi (frame.drop 5))
    else if frame.head?.any Char.isDigit then some (atoi frame)
    else none

/-- A text that begins otherwise than a word does not begin with it. -/
lemma not_prefix_of_head {word frame : CString} (hword : word ≠ [])
    (hhead : frame.head? ≠ word.head?) : ¬ word <+: frame := by
  rintro ⟨rest, rfl⟩
  rcases word with - | ⟨ch, word⟩
  · exact hword rfl
  · exact hhead rfl

/-- The line for the end of a run. -/
def stopLine (cents : ℤ) : CString :=
  scSerial ++ ' ' :: ("stop".toList ++ ' ' :: printInt (10 * cents))

lemma stopText_eq {number text : CString} (h : stopText number = some text) :
    IsInt (10 * atoi number) ∧
      text = "stop".toList ++ ' ' :: printInt (10 * atoi number) ++ "\n".toList := by
  unfold stopText at h
  dsimp only at h
  split_ifs at h with hint
  cases h
  refine ⟨hint, ?_⟩
  have hword : "stop ".toList = "stop".toList ++ [' '] := by decide
  rw [hword, List.append_assoc ("stop".toList)]
  rfl

/-- What the serial thread makes of a frame for the end of a run. -/
lemma serialLine_stopText {number text : CString} (h : stopText number = some text) :
    text.take (readLength - 1) = text ∧ serialLine text = some (stopLine (atoi number)) := by
  obtain ⟨hint, rfl⟩ := stopText_eq h
  let body := "stop".toList ++ ' ' :: printInt (10 * atoi number)
  have hnumber := hint.length_printInt
  have hlength : (body ++ "\n".toList).length ≤ readLength - 1 := by
    have hword : "stop".toList.length = 4 := rfl
    have hend : "\n".toList.length = 1 := rfl
    simp only [body, List.length_append, List.length_cons, hword, hend, readLength]
    omega
  have hclean : '\n' ∉ body := by
    simp only [body, List.mem_append, List.mem_cons, not_or]
    exact ⟨by decide, by decide, not_mem_printInt (by decide) (by decide) _⟩
  have hne : body ≠ [] := by simp [body]
  exact ⟨List.take_of_length_le hlength, (driverLine_of_line scSerial hclean hne).1⟩

/-- A frame that ends a run goes to `stopText`. -/
lemma moduleRead_cents {length : ℕ} {received : Option (List Char)} {cents : ℤ} {text : CString}
    (hcents : frameCents received = some cents) (htext : moduleRead length received = some text) :
    ∃ number, atoi number = cents ∧ (stopText number).map (·.take (length - 1)) = some text := by
  rcases received with - | bytes
  · cases hcents
  have hshort : bytes.length < 1024 := by
    by_contra hlong
    rw [moduleRead, if_neg hlong] at htext
    cases htext
  rw [moduleRead, if_pos hshort] at htext
  rw [frameCents, Option.bind_some] at hcents
  dsimp only at hcents htext
  generalize cstr bytes = frame at hcents htext
  have hother : ∀ word : CString, word ≠ [] → frame.head? ≠ word.head? → ¬ word <+: frame :=
    fun _ => not_prefix_of_head
  by_cases hparar : "PARAR".toList <+: frame
  · have hhead : frame.head? = some 'P' := by
      obtain ⟨rest, rfl⟩ := hparar
      rfl
    have hstart := hother "START".toList (by decide) (by rw [hhead]; decide)
    rw [if_pos hparar] at hcents
    rw [if_neg hstart, if_pos hparar] at htext
    exact ⟨frame.drop 5, Option.some.inj hcents, htext⟩
  · rw [if_neg hparar] at hcents
    split_ifs at hcents with hdigit
    -- no word begins with a digit
    have hword : ∀ word : CString, word ≠ [] → word.head?.any Char.isDigit = false →
        ¬ word <+: frame := by
      intro word hne hletter
      refine hother word hne fun heq => ?_
      rw [← heq, hdigit] at hletter
      cases hletter
    rw [if_neg (hword _ (by decide) (by decide)), if_neg hparar,
      if_neg (hword _ (by decide) (by decide)), if_neg (hword _ (by decide) (by decide)),
      if_neg (hword _ (by decide) (by decide)), if_pos hdigit] at htext
    exact ⟨frame, Option.some.inj hcents, htext⟩

lemma parseLine_stopLine (cents : ℤ) :
    parseLine (stopLine cents) =
      some (.command .stop [scSerial, Command.stop.cmd, printInt (10 * cents)]) := by
  have hnumber : (printInt (10 * cents)).splitOn ' ' = [printInt (10 * cents)] :=
    List.splitOn_eq_singleton (not_mem_printInt (by decide) (by decide) _)
  rw [stopLine, parseLine_append _ (by decide) (by decide) (by decide)
    (by decide : toLower "stop".toList = Command.stop.cmd), hnumber]
  rfl

/-- The line reaches main as it is. -/
lemma receive_stopLine {cents : ℤ} (hint : IsInt (10 * cents)) :
    receive (stopLine cents) = some (stopLine cents) := by
  have hnumber := hint.length_printInt
  have hnul : '\x00' ∉ stopLine cents := by
    simp only [stopLine, List.mem_append, List.mem_cons, not_or]
    exact ⟨by decide, by decide, by decide, by decide, not_mem_printInt (by decide) (by decide) _⟩
  have hlength : (stopLine cents).length < 500 := by
    have hsource : scSerial.length = 11 := rfl
    have hword : "stop".toList.length = 4 := rfl
    simp only [stopLine, List.length_append, List.length_cons, hsource, hword]
    omega
  rw [receive, if_pos hlength, cstr, takeWhile_ne_self hnul]

/-- Main refuses the line while no run is on, and else takes its number for the time of the
stop. -/
lemma handleLine_stopLine {s t : World} {cents : ℤ} (hint : IsInt (10 * cents))
    (h : handleLine s (stopLine cents) = some t) :
    t.config.status =
      if s.config.status.startTime < 0 then s.config.status
      else { s.config.status with stopTime := 10 * cents } := by
  obtain ⟨-, buffer, front, hreceive, hfront, hconfig⟩ := handleLine_frame h
  obtain rfl := Option.some.inj (hreceive.symm.trans (receive_stopLine hint))
  have hstatus := mainFront_config s.config (by decide) (parseLine_stopLine cents)
  rw [hfront, Option.map_some] at hstatus
  have hnumber : strtol (printInt (10 * cents)) = 10 * cents := by
    have hlow : longMin ≤ 10 * cents := le_trans (by decide) hint.1
    have hhigh : 10 * cents ≤ longMax := le_trans hint.2.le (by decide)
    have hread := strtol_printInt_append hlow hhigh endsNumber_nil
    rwa [List.append_nil] at hread
  rw [hconfig, Option.some.inj hstatus]
  dsimp only [List.head?_cons, Option.map_some, Option.getD_some]
  rw [hnumber]

/-! ## The courses of a run -/

/-- A course that a frame of the chronometer has ended: what the frame told, and the status main
has then. -/
structure Course where
  cents : ℤ
  status : Status

/-- The time of the course is the one told. -/
def Course.Exact (course : Course) : Prop :=
  course.status.stopTime - course.status.startTime = 10 * course.cents

/-- The program, whether a `start` has been accepted, and the courses that have ended since. -/
structure CourseRun where
  world : World
  started : Bool
  courses : List Course

/-- The line that main takes. -/
def World.taken (s : World) : WorldInput → Option (List Char)
  | .line datagram => some datagram
  | .deliver => s.pending.head?.map Prod.snd
  | .event _ | .sends _ | .frame _ => none

/-- A `start`: it is accepted from any source and with any timestamp. -/
def isStart (datagram : List Char) : Bool :=
  match (receive datagram).bind parseLine with
  | some (.command .start _) => true
  | _ => false

/-- What the line that main takes tells about the end of a run. -/
def World.told (s : World) : WorldInput → Option ℤ
  | .deliver => s.pending.head?.bind fun sent => frameCents sent.1
  | _ => none

def courseStep (jsonCreate : JsonCreate) (r : CourseRun) (input : WorldInput) :
    Option CourseRun := do
  let world ← worldStep jsonCreate r.world input
  let ended :=
    if r.started then (r.world.told input).map fun cents => ⟨cents, world.config.status⟩ else none
  return { world, started := r.started || (r.world.taken input).any isStart
           courses := r.courses ++ ended.toList }

/-- The program after its start. -/
def CourseRun.start : CourseRun := ⟨.start, false, []⟩

/-- The times of the courses are those told. -/
def CourseRun.Exact (r : CourseRun) : Prop := ∀ course ∈ r.courses, course.Exact

/-- When a run ends, its start was at zero; or else main refuses the stop, and the times of the
run before happen to be right. -/
def FromZero (r : CourseRun) (input : WorldInput) : Prop :=
  r.started = true → ∀ cents ∈ r.world.told input,
    let status := r.world.config.status
    status.startTime = 0 ∨
      status.startTime < 0 ∧ status.stopTime = status.startTime + 10 * cents

/-- The end of a run. -/
lemma exact_told_iff {jsonCreate : JsonCreate} {s t : World} {input : WorldInput} {cents : ℤ}
    (hs : s.Made) (htold : s.told input = some cents)
    (h : worldStep jsonCreate s input = some t) :
    Course.Exact ⟨cents, t.config.status⟩ ↔
      s.config.status.startTime = 0 ∨ s.config.status.startTime < 0 ∧
        s.config.status.stopTime = s.config.status.startTime + 10 * cents := by
  cases input with
  | deliver =>
    obtain ⟨received, line, pending, hpending, h⟩ := deliver_spec h
    have hcents : frameCents received = some cents := by
      rw [World.told, hpending] at htold
      exact htold
    obtain ⟨text, htext, hline⟩ := hs (received, line) (hpending ▸ List.mem_cons_self)
    obtain ⟨number, rfl, htext⟩ := moduleRead_cents hcents htext
    obtain ⟨whole, hwhole, rfl⟩ := Option.map_eq_some_iff.mp htext
    obtain ⟨htake, hmade⟩ := serialLine_stopText hwhole
    rw [htake, hmade] at hline
    obtain rfl := Option.some.inj hline
    have hstatus := handleLine_stopLine (stopText_eq hwhole).1 h
    unfold Course.Exact
    dsimp only at hstatus ⊢
    rw [hstatus]
    split_ifs with hnegative
    · omega
    · dsimp only
      omega
  | line | event | sends | frame => cases htold

lemma exact_step_iff {jsonCreate : JsonCreate} {r t : CourseRun} {input : WorldInput}
    (hmade : r.world.Made) (hr : r.Exact) (h : courseStep jsonCreate r input = some t) :
    t.Exact ↔ FromZero r input := by
  obtain ⟨world, hworld, h⟩ := Option.bind_eq_some_iff.mp h
  cases h
  have hall : ∀ ended : Option Course,
      (∀ course ∈ r.courses ++ ended.toList, course.Exact) ↔ ∀ course ∈ ended, course.Exact := by
    intro ended
    constructor
    · exact fun h course hcourse => h course (List.mem_append_right _ (Option.mem_toList.mpr hcourse))
    · intro h course hcourse
      rcases List.mem_append.mp hcourse with hold | hnew
      · exact hr course hold
      · exact h course (Option.mem_toList.mp hnew)
  refine (hall _).trans ?_
  unfold FromZero
  by_cases hstarted : r.started = true
  · rw [if_pos hstarted]
    rcases htold : r.world.told input with - | cents
    · exact iff_of_true (fun course hcourse => by cases hcourse) fun _ cents hcents => by cases hcents
    · have hone := exact_told_iff hmade htold hworld
      constructor
      · intro h _ cents' hcents'
        obtain rfl := Option.mem_some_iff.mp hcents'
        exact hone.mp (h _ rfl)
      · intro h course hcourse
        obtain rfl := Option.mem_some_iff.mp hcourse
        exact hone.mpr (h hstarted cents rfl)
  · rw [if_neg hstarted]
    exact iff_of_true (fun course hcourse => by cases hcourse) fun h => absurd h hstarted

/-- **The time of a course.** For every sequence of lines from any source, of events and of frames
of the chronometer: every run that a frame of the chronometer ends after a `start` has been
accepted gets the time told if and only if, whenever such a frame is carried out, the start in
force was at zero (or no run is on, and the times of the run before happen to be right). -/
theorem exact_iff_along (jsonCreate : JsonCreate) (inputs : List WorldInput) :
    Always (courseStep jsonCreate) CourseRun.Exact .start inputs ↔
      Along (courseStep jsonCreate) FromZero .start inputs := by
  have hmade : ∀ (r : CourseRun) (input : WorldInput) (t : CourseRun), r.world.Made →
      courseStep jsonCreate r input = some t → t.world.Made := by
    intro r input t hr h
    obtain ⟨world, hworld, h⟩ := Option.bind_eq_some_iff.mp h
    cases h
    exact made_step hr hworld
  have hstart : CourseRun.start.Exact := fun course hcourse => by cases hcourse
  exact always_iff_along (J := fun r => r.world.Made) hmade
    (fun r input t hr hexact h => exact_step_iff hr hexact h) made_start hstart

/-- A run that AgilityContest starts at 5000 and the chronometer ends after a second is recorded
as 4 seconds less than nothing. -/
theorem course_from_another_origin :
    ¬ ∀ (jsonCreate : JsonCreate) (inputs : List WorldInput),
      Always (courseStep jsonCreate) CourseRun.Exact .start inputs := by
  intro h
  let inputs : List WorldInput :=
    [.line "ac_server start 5000".toList, .frame (some "PARAR0100".toList), .deliver]
  have hrun : (run (courseStep fun _ _ => none) .start inputs).map
      (fun r => r.courses.map fun course =>
        (course.cents, course.status.startTime, course.status.stopTime)) =
          some [(100, 5000, 1000)] := by decide
  obtain ⟨r, hr, hcourses⟩ := Option.map_eq_some_iff.mp hrun
  obtain ⟨course, hcourse, htimes⟩ := List.map_eq_singleton_iff.mp hcourses
  simp only [Prod.mk.injEq] at htimes
  obtain ⟨hcents, hstart, hstop⟩ := htimes
  have hexact := (h (fun _ _ => none) inputs).of_run hr course (by rw [hcourse]; simp)
  rw [Course.Exact, hcents, hstart, hstop] at hexact
  exact absurd hexact (by decide)

end Digican

end SerialChrono
