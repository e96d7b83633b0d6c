import SerialChrono.Exit
import SerialChrono.Library.CBuffer
import SerialChrono.Stdio

/-!
# The console thread (`console_mgr.c`)

The thread sends main one datagram for each line of the console.  All of them are made in one
buffer, which begins with the name of the thread; a line is read behind it.

At the end of the input the word `exit` is meant to end the program, but it is written to the
beginning of the buffer, over the name: main is sent a text of one token, which it answers with
an error, and the thread tries the same again in its next turn.  `consoleThread_endsProgram_iff`
says that the program ends as it should exactly if that end is never reached.
-/

namespace SerialChrono

open CText CBuffer PartialRun

/-! ## The thread -/

/-- What `request` begins with. -/
def consoleHeader : CString := scConsole ++ " ".toList

/-- A datagram of the thread, and whether `fgets` had found the end of the input. -/
structure ConsoleDatagram where
  text : CString
  onEof : Bool
  deriving DecidableEq, Repr

/-- The variables of `console_manager_thread`, the input not yet read, and what the thread has
done so far: the datagrams it has sent, and whether it has found the end of the input. -/
structure ConsoleThread where
  request : Buffer 1024
  stdin : List Char
  res : ℤ
  sent : List ConsoleDatagram
  eof : Bool

/-- The thread as it enters the loop for the first time. -/
def ConsoleThread.start (stdin : List Char) : Option ConsoleThread :=
  ((Buffer.zero 1024).print 0 consoleHeader).map fun request => ⟨request, stdin, 0, [], false⟩

/-- What a turn of the loop meets: what `send` returns, the answer of main or an error of `recv`,
and `slot->index`. -/
structure ConsoleTurn where
  send : ℤ
  answer : Option Response
  index : ℤ
  deriving DecidableEq, Repr

/-- The value of `res` after a datagram has been sent. -/
def ConsoleTurn.result (turn : ConsoleTurn) : ℤ :=
  if turn.send < 0 then turn.send
  else
    match turn.answer with
    | none => -1
    | some answer => if turn.index < 0 then -1 else answer.text.length

/-- The line of this turn, read behind the header; at the end of the input, the text that should
be the `exit` command. -/
def ConsoleThread.readLine (s : ConsoleThread) : Option ConsoleThread :=
  match fgets (1024 - consoleHeader.length) s.stdin with
  | none =>
    (s.request.print 0 "exit".toList).map fun request =>
      { s with request, res := request.text.length, eof := true }
  | some (line, stdin) =>
    (s.request.print consoleHeader.length line).map fun request => { s with request, stdin }

/-- `send` and `recv`. -/
def ConsoleThread.exchange (s : ConsoleThread) (turn : ConsoleTurn) : ConsoleThread :=
  { s with sent := s.sent ++ [⟨s.request.text, s.eof⟩], res := turn.result }

/-- A turn of the loop, nothing if it has been left. -/
def consoleStep (s : ConsoleThread) (turn : ConsoleTurn) : Option ConsoleThread :=
  if s.res < 0 then some s
  else do
    let s ← s.readLine
    let request ← s.request.stripNewline
    let s := { s with request }
    if cstr (request.bytes.drop consoleHeader.length) = [] then
      -- empty string received
      return s
    else return s.exchange turn

/-- The thread after these turns. -/
def consoleRun (stdin : List Char) (turns : List ConsoleTurn) : Option ConsoleThread :=
  (ConsoleThread.start stdin).bind fun s => run consoleStep s turns

/-! ## What it is for -/

/-- Main takes the datagram for the `exit` command, and its loop is over, whatever state it is in
and whichever threads are alive. -/
def EndsMain (datagram : List Char) : Prop :=
  (∃ tokens, parseLine datagram = some (.command .exit tokens)) ∧
    ∀ (W : Type) (s t : MainState W) (a : Arrival W) (response : Response),
      a.datagram = datagram → mainStep s a = some (t, response) → t.loop = false

/-- Every datagram begins with the name of the thread, and after the end of the input the one
sent on it ends the main loop. -/
def ConsoleThread.EndsProgram (s : ConsoleThread) : Prop :=
  (∀ d ∈ s.sent, consoleHeader <+: d.text) ∧
    (s.eof = true → ∃ d ∈ s.sent, d.onEof = true ∧ EndsMain d.text)

/-- The datagram is sent and answered, and no end of the thread is requested. -/
structure ConsoleTurn.Successful (turn : ConsoleTurn) : Prop where
  send : 0 ≤ turn.send
  answer : turn.answer ≠ none
  index : 0 ≤ turn.index

/-- The thread gets to the end of the input: each line before it is blank, or its exchange with
main is successful. -/
def EofReached : (stdin : List Char) → List ConsoleTurn → Prop
  | _, [] => False
  | stdin, turn :: turns =>
    match fgets (1024 - consoleHeader.length) stdin with
    | none => True
    | some (line, stdin) => (firstLine line = [] ∨ turn.Successful) ∧ EofReached stdin turns

/-- A text that would end the program. -/
lemma endsMain_exit : EndsMain (consoleHeader ++ "exit".toList) := by
  have hparse : parseLine (consoleHeader ++ "exit".toList) =
      some (.command .exit [scConsole, "exit".toList]) := by decide
  refine ⟨⟨_, hparse⟩, fun W s t a response hdatagram hstep => ?_⟩
  have hreceive : receive a.datagram = some (consoleHeader ++ "exit".toList) := by
    rw [hdatagram]
    decide
  have hmention : MentionsExit (consoleHeader ++ "exit".toList) := by
    unfold MentionsExit
    decide
  have haccepted : ¬ Rejected s.config (consoleHeader ++ "exit".toList) := by
    unfold Rejected
    rw [hparse]
    simp
  rw [← Bool.not_eq_true, mainStep_loop hreceive hstep]
  tauto

/-- The word alone is too short for main. -/
lemma not_endsMain_word : ¬ EndsMain "exit".toList := by
  rintro ⟨⟨tokens, hparse⟩, -⟩
  have hshort : parseLine "exit".toList = some .tooShort := by decide
  rw [hshort] at hparse
  cases hparse

/-! ## The turns -/

/-- The value of `res` after an exchange keeps the thread in the loop if the exchange was
successful. -/
lemma result_nonneg_iff (turn : ConsoleTurn) : 0 ≤ turn.result ↔ turn.Successful := by
  unfold ConsoleTurn.result
  by_cases hsend : turn.send < 0
  · rw [if_pos hsend]
    exact iff_of_false (not_le.mpr hsend) fun h => not_le.mpr hsend h.send
  · rw [if_neg hsend]
    cases hanswer : turn.answer with
    | none => exact iff_of_false (by simp) fun h => h.answer hanswer
    | some answer =>
      dsimp only
      split_ifs with hindex
      · exact iff_of_false (by simp) fun h => not_le.mpr hindex h.index
      · refine iff_of_true (Int.natCast_nonneg _) ⟨not_lt.mp hsend, ?_, not_lt.mp hindex⟩
        rw [hanswer]
        exact Option.some_ne_none answer

/-- What the thread keeps: the header stands in the buffer until the end of the input, and the
datagrams sent then have it; those sent later are the word alone. -/
structure ConsoleThread.Inv (s : ConsoleThread) : Prop where
  header : s.eof = false → s.request.Begins consoleHeader
  named : s.eof = false → ∀ d ∈ s.sent, consoleHeader <+: d.text
  word : ∀ d ∈ s.sent, d.onEof = true → d.text = "exit".toList
  input : s.eof = true → s.stdin = []

/-- The program ends as it should only before the end of the input. -/
lemma ConsoleThread.Inv.endsProgram_iff {s : ConsoleThread} (hs : s.Inv) :
    s.EndsProgram ↔ s.eof = false := by
  constructor
  · rintro ⟨-, hends⟩
    rw [← Bool.not_eq_true]
    intro heof
    obtain ⟨d, hd, honEof, hmain⟩ := hends heof
    rw [hs.word d hd honEof] at hmain
    exact not_endsMain_word hmain
  · intro heof
    refine ⟨hs.named heof, fun hend => ?_⟩
    rw [heof] at hend
    cases hend

lemma start_inv (stdin : List Char) :
    ∃ s, ConsoleThread.start stdin = some s ∧ s.Inv ∧
      s.stdin = stdin ∧ s.res = 0 ∧ s.eof = false := by
  have hfits : ([] : List Char).length + consoleHeader.length < 1024 := by decide
  obtain ⟨request, hprint, hbegins⟩ :=
    Buffer.print_begins (Buffer.begins_nil (Buffer.zero 1024)) consoleHeader hfits
  refine ⟨⟨request, stdin, 0, [], false⟩, ?_, ⟨fun _ => hbegins.left, ?_, ?_, ?_⟩, rfl, rfl, rfl⟩
  · exact congrArg (Option.map _) hprint
  · exact fun _ d hd => absurd hd List.not_mem_nil
  · exact fun d hd => absurd hd List.not_mem_nil
  · exact fun heof => Bool.noConfusion heof

/-- A turn in which a line is read. -/
lemma consoleStep_line {s : ConsoleThread} (hheader : s.request.Begins consoleHeader)
    (hres : 0 ≤ s.res) (turn : ConsoleTurn) {line stdin : List Char}
    (hline : fgets (1024 - consoleHeader.length) s.stdin = some (line, stdin)) :
    ∃ request : Buffer 1024, request.Begins (consoleHeader ++ firstLine line ++ ['\x00']) ∧
      consoleStep s turn = some (if firstLine line = [] then { s with request, stdin }
        else ({ s with request, stdin } : ConsoleThread).exchange turn) := by
  have hroom := length_of_fgets hline
  have hheaderLength : consoleHeader.length = 12 := by decide
  obtain ⟨printed, hprint, hprinted⟩ := Buffer.print_begins hheader line (by omega)
  obtain ⟨request, hstrip, hbegins⟩ := Buffer.stripNewline_begins hprinted
  rw [firstLine_append (by decide) (by decide)] at hbegins
  have htyped : cstr (request.bytes.drop consoleHeader.length) = firstLine line := by
    obtain ⟨after, hafter⟩ := hbegins
    rw [← hafter, List.append_assoc, List.append_assoc, List.drop_left, cstr,
      takeWhile_ne_append (nul_notMem_firstLine line)]
    simp
  refine ⟨request, hbegins, ?_⟩
  unfold consoleStep ConsoleThread.readLine
  rw [if_neg (not_lt.mpr hres), hline]
  simp only [hprint, Option.map_some, Option.bind_eq_bind, Option.bind_some, hstrip, htyped]
  split_ifs <;> rfl

/-- A turn at the end of the input. -/
lemma consoleStep_eof {s : ConsoleThread} (hres : 0 ≤ s.res) (turn : ConsoleTurn)
    (hstdin : s.stdin = []) :
    ∃ request : Buffer 1024, request.text = "exit".toList ∧
      ∃ res, consoleStep s turn = some { s with request, res, eof := true } ∨
        consoleStep s turn =
          some (({ s with request, res, eof := true } : ConsoleThread).exchange turn) := by
  obtain ⟨printed, hprint, hprinted⟩ :=
    Buffer.print_begins (Buffer.begins_nil s.request) "exit".toList (by decide)
  obtain ⟨request, hstrip, hbegins⟩ := Buffer.stripNewline_begins hprinted
  have hprint : s.request.print 0 "exit".toList = some printed := hprint
  refine ⟨request, Buffer.text_of_begins hbegins (by decide), printed.text.length, ?_⟩
  unfold consoleStep ConsoleThread.readLine
  rw [if_neg (not_lt.mpr hres), fgets_eq_none_iff.mpr hstdin]
  simp only [hprint, Option.map_some, Option.bind_eq_bind, Option.bind_some, hstrip]
  split_ifs
  · exact Or.inl rfl
  · exact Or.inr rfl

/-! ## The runs -/

lemma exchange_inv {s : ConsoleThread} (hs : s.Inv) (turn : ConsoleTurn)
    (hnamed : s.eof = false → consoleHeader <+: s.request.text)
    (hword : s.eof = true → s.request.text = "exit".toList) : (s.exchange turn).Inv := by
  refine ⟨hs.header, fun heof => ?_, ?_, hs.input⟩
  · exact List.forall_mem_append.mpr
      ⟨hs.named heof, List.forall_mem_singleton.mpr (hnamed heof)⟩
  · exact List.forall_mem_append.mpr ⟨hs.word, List.forall_mem_singleton.mpr hword⟩

/-- A line keeps the invariant. -/
lemma consoleStep_line_inv {s : ConsoleThread} (hs : s.Inv) (hres : 0 ≤ s.res)
    (turn : ConsoleTurn) {line stdin : List Char}
    (hline : fgets (1024 - consoleHeader.length) s.stdin = some (line, stdin)) :
    ∃ t, consoleStep s turn = some t ∧ t.Inv ∧ t.eof = false ∧ t.stdin = stdin ∧
      (0 ≤ t.res ↔ firstLine line = [] ∨ turn.Successful) := by
  have heof : s.eof = false := by
    rw [← Bool.not_eq_true]
    intro heof
    rw [fgets_eq_none_iff.mpr (hs.input heof)] at hline
    cases hline
  obtain ⟨request, hrequest, hstep⟩ := consoleStep_line (hs.header heof) hres turn hline
  have hheader : request.Begins consoleHeader := hrequest.left.left
  have hnul : '\x00' ∉ consoleHeader ++ firstLine line := by
    rw [List.mem_append, not_or]
    exact ⟨by decide, nul_notMem_firstLine line⟩
  have hnext : ({ s with request, stdin } : ConsoleThread).Inv :=
    ⟨fun _ => hheader, hs.named, hs.word, fun hend => absurd (heof.symm.trans hend) (by decide)⟩
  refine ⟨_, hstep, ?_⟩
  split_ifs with hblank
  · exact ⟨hnext, heof, rfl, iff_of_true hres (Or.inl hblank)⟩
  · refine ⟨exchange_inv hnext turn (fun _ => ?_) fun hend => ?_, heof, rfl, ?_⟩
    · dsimp only
      rw [Buffer.text_of_begins hrequest hnul]
      exact List.prefix_append _ _
    · exact absurd (heof.symm.trans hend) (by decide)
    · rw [or_iff_right hblank]
      exact result_nonneg_iff turn

/-- The end of the input keeps it too. -/
lemma consoleStep_eof_inv {s : ConsoleThread} (hs : s.Inv) (hres : 0 ≤ s.res)
    (turn : ConsoleTurn) (hstdin : s.stdin = []) :
    ∃ t, consoleStep s turn = some t ∧ t.Inv ∧ t.eof = true := by
  obtain ⟨request, hrequest, res, hstep⟩ := consoleStep_eof hres turn hstdin
  have hnext : ({ s with request, res, eof := true } : ConsoleThread).Inv :=
    ⟨fun heof => Bool.noConfusion heof, fun heof => Bool.noConfusion heof, hs.word,
      fun _ => hstdin⟩
  rcases hstep with hstep | hstep
  · exact ⟨_, hstep, hnext, rfl⟩
  · exact ⟨_, hstep, exchange_inv hnext turn (fun heof => Bool.noConfusion heof)
      fun _ => hrequest, rfl⟩

/-- Once the loop has been left nothing happens. -/
lemma run_left {s : ConsoleThread} (hres : s.res < 0) (turns : List ConsoleTurn) :
    run consoleStep s turns = some s := by
  induction turns with
  | nil => rfl
  | cons turn turns ih =>
    have hstep : consoleStep s turn = some s := if_pos hres
    rw [run_cons, hstep, Option.bind_some, ih]

/-- Once the end of the input has been found it stays found. -/
lemma run_eof {s : ConsoleThread} (hs : s.Inv) (heof : s.eof = true)
    (turns : List ConsoleTurn) :
    ∃ t, run consoleStep s turns = some t ∧ t.Inv ∧ t.eof = true := by
  induction turns generalizing s with
  | nil => exact ⟨s, rfl, hs, heof⟩
  | cons turn turns ih =>
    rcases lt_or_ge s.res 0 with hres | hres
    · exact ⟨s, run_left hres _, hs, heof⟩
    · obtain ⟨t, hstep, ht, htEof⟩ := consoleStep_eof_inv hs hres turn (hs.input heof)
      rw [run_cons, hstep]
      exact ih ht htEof

/-- The end of the input is found exactly in the runs that reach it. -/
lemma run_eof_iff {s : ConsoleThread} (hs : s.Inv) (hres : 0 ≤ s.res) (heof : s.eof = false)
    (turns : List ConsoleTurn) :
    ∃ t, run consoleStep s turns = some t ∧ t.Inv ∧
      (t.eof = true ↔ EofReached s.stdin turns) := by
  induction turns generalizing s with
  | nil => exact ⟨s, rfl, hs, by simp [heof, EofReached]⟩
  | cons turn turns ih =>
    unfold EofReached
    rw [run_cons]
    rcases hline : fgets (1024 - consoleHeader.length) s.stdin with - | ⟨line, stdin⟩
    · obtain ⟨t, hstep, ht, htEof⟩ :=
        consoleStep_eof_inv hs hres turn (fgets_eq_none_iff.mp hline)
      obtain ⟨u, hrun, hu, huEof⟩ := run_eof ht htEof turns
      rw [hstep]
      exact ⟨u, hrun, hu, iff_of_true huEof trivial⟩
    · obtain ⟨t, hstep, ht, htEof, rfl, htRes⟩ := consoleStep_line_inv hs hres turn hline
      rw [hstep, Option.bind_some]
      dsimp only
      rw [← htRes]
      rcases lt_or_ge t.res 0 with hleft | hgo
      · refine ⟨t, run_left hleft turns, ht, ?_⟩
        simp [htEof, not_le.mpr hleft]
      · obtain ⟨u, hrun, hu, huEof⟩ := ih ht hgo htEof
        exact ⟨u, hrun, hu, huEof.trans (and_iff_right hgo).symm⟩

/-- After every input and all turns: the program ends as it should if its end is not reached. -/
lemma consoleRun_spec (stdin : List Char) (turns : List ConsoleTurn) :
    ∃ s, consoleRun stdin turns = some s ∧ (s.EndsProgram ↔ s.eof = false) ∧
      (s.eof = true ↔ EofReached stdin turns) := by
  obtain ⟨s, hstart, hs, rfl, hres, heof⟩ := start_inv stdin
  obtain ⟨t, hrun, ht, htEof⟩ := run_eof_iff hs hres.ge heof turns
  refine ⟨t, ?_, ht.endsProgram_iff, htEof⟩
  rw [consoleRun, hstart, Option.bind_some, hrun]

/-- **When the end of the input does no harm.** For every input and every sequence of turns: the
datagrams of the thread begin with its name, and the one sent at the end of the input ends the
main loop, if and only if the thread does not get to the end of the input. -/
theorem consoleThread_endsProgram_iff (stdin : List Char) (turns : List ConsoleTurn) :
    ∃ s, consoleRun stdin turns = some s ∧ (s.EndsProgram ↔ ¬ EofReached stdin turns) := by
  obtain ⟨s, hrun, hends, heof⟩ := consoleRun_spec stdin turns
  refine ⟨s, hrun, ?_⟩
  rw [hends, ← heof, Bool.not_eq_true]

/-- One line, and the end of the input in the next turn. -/
theorem consoleThread_oneLine :
    ¬ ∀ (stdin : List Char) (turns : List ConsoleTurn),
      ∃ s, consoleRun stdin turns = some s ∧ s.EndsProgram := by
  intro h
  have hok : ConsoleTurn.Successful ⟨14, some .ok, 0⟩ := ⟨by decide, by decide, by decide⟩
  obtain ⟨s, hrun, hends⟩ := h "ok\n".toList [⟨14, some .ok, 0⟩, ⟨4, some .error, 0⟩]
  obtain ⟨t, hrun', hends', heof⟩ :=
    consoleRun_spec "ok\n".toList [⟨14, some .ok, 0⟩, ⟨4, some .error, 0⟩]
  obtain rfl : s = t := Option.some.inj (hrun.symm.trans hrun')
  have hreached : s.eof = true := heof.mpr ⟨Or.inr hok, trivial⟩
  rw [hends'.mp hends] at hreached
  cases hreached

end SerialChrono
