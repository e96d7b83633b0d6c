import SerialChrono.Library.CText
import SerialChrono.Library.PartialRun

/-!
# The QR code reader (`qrcode_mgr.c`)

The thread reads blocks of bytes from the port of the reader, takes the first line of each for a
code `["dorsal","dogid"]`, and tells main the dorsal of every code that is not the one before.

One variable is the condition of the loop and the result of the parsing.  A line without a code is
skipped by `continue`, which tests the condition first, and the thread is over.  The code before
the first is `0`, `0`, and what `sscanf` accepts is more than what a code is.  `wanted` says what
main should be told, and `keepsReading_iff` which blocks the thread gets right.
-/

namespace SerialChrono

open CText PartialRun

/-! ## The thread -/

def scQrcode : CString := "qrcode_server".toList

/-- The two numbers `sscanf` reads with the format `["%d","%d"]`, if it reads both.  What stands
behind the second is not looked at. -/
def scanCode (request : CString) : Option (ℤ × ℤ) := do
  let text ← scanLiteral "[\"".toList request
  let (dorsal, text) ← scanInt text
  let text ← scanLiteral "\",\"".toList text
  let (dogid, _) ← scanInt text
  return (dorsal, dogid)

/-- What `qrcode_parse_dorsal` returns, and the numbers it stores if that is not negative. -/
structure ParsedDorsal where
  res : ℤ
  dorsal : ℤ
  dogid : ℤ
  deriving DecidableEq, Repr

/-- `qrcode_parse_dorsal`. -/
def qrcodeParseDorsal (request : CString) : ParsedDorsal :=
  match scanCode (toLower request) with
  | none => ⟨-1, 0, 0⟩
  | some (dorsal, dogid) => ⟨dorsal, dorsal, dogid⟩

/-- The variables of `qrcode_manager_thread` that outlive a turn of its loop, and the datagrams it
has sent. -/
structure QrThread where
  res : ℤ
  dorsal : ℤ
  dogid : ℤ
  sent : List CString
  deriving DecidableEq, Repr

/-- The thread as it enters the loop for the first time. -/
def QrThread.start : QrThread := ⟨0, 0, 0, []⟩

/-- What a turn of the loop meets: the bytes read, or an error, what `send` and `recv` return, and
`slot->index`.  The answers of main are short, and their terminator has its place in `response`. -/
structure QrTurn where
  read : Option (List Char)
  send : ℤ
  recv : ℤ
  index : ℤ
  deriving DecidableEq, Repr

/-- The datagram with the number of the dog. -/
def turnDatagram (dorsal : ℤ) : CString :=
  scQrcode ++ " TURN ".toList ++ printInt dorsal ++ "\n".toList

/-- A turn of the loop, nothing if it has been left.  The terminator of a block that fills
`request` is stored past its end, where nothing is defined. -/
def qrcodeStep (s : QrThread) (turn : QrTurn) : Option QrThread :=
  if s.res < 0 then some s
  else
    match turn.read with
    | none => some { s with res := -1 }
    | some block =>
      if 1024 ≤ block.length then none
      else if firstLine block = [] then
        -- empty string received
        some s
      else
        let parsed := qrcodeParseDorsal (firstLine block)
        let s := { s with res := parsed.res }
        if parsed.res < 0 then some s
        else if parsed.dorsal = s.dorsal ∧ parsed.dogid = s.dogid then
          -- duplicate read
          some s
        else
          let s := { s with
            dorsal := parsed.dorsal
            dogid := parsed.dogid
            sent := s.sent ++ [turnDatagram parsed.dorsal]
            res := turn.send }
          if turn.send < 0 then some s
          else
            let s := { s with res := turn.recv }
            if turn.recv < 0 then some s
            else if turn.index < 0 then some { s with res := -1 }
            else some s

/-- A block has come in, the exchange with main is successful and no exit is requested. -/
structure QrTurn.Undisturbed (turn : QrTurn) : Prop where
  read : ∃ block, turn.read = some block ∧ block ≠ [] ∧ block.length ≤ 1024
  send : 0 ≤ turn.send
  recv : 0 ≤ turn.recv
  index : 0 ≤ turn.index

/-! ## What it is for -/

/-- A number of a code: digits, for a value that an `int` holds. -/
def codeNumber (digits : CString) : Option ℕ :=
  if digits ≠ [] ∧ digits.all Char.isDigit ∧ textNat digits < 2 ^ 31 then some (textNat digits)
  else none

/-- The code `["dorsal","dogid"]` in a line, which may end with a carriage return. -/
def codeOf (line : CString) : Option (ℕ × ℕ) := do
  let text ← scanLiteral "[\"".toList line
  let (dorsal, text) ← cutAt '"' text
  let text ← scanLiteral ",\"".toList text
  let (dogid, text) ← cutAt '"' text
  let dorsal ← codeNumber dorsal
  let dogid ← codeNumber dogid
  if text = "]".toList ∨ text = "]\r".toList then some (dorsal, dogid) else none

/-- The code in what a turn has read. -/
def QrTurn.code (turn : QrTurn) : Option (ℕ × ℕ) :=
  turn.read.bind fun block => codeOf (firstLine block)

/-- The last code accepted, after one more turn. -/
def acceptedAfter (accepted : Option (ℕ × ℕ)) (turn : QrTurn) : Option (ℕ × ℕ) :=
  turn.code.or accepted

/-- What main is to be told: the dorsal of a code that is not the one accepted before. -/
def wanted (accepted : Option (ℕ × ℕ)) (turn : QrTurn) : List CString :=
  match turn.code with
  | none => []
  | some code => if accepted = some code then [] else [turnDatagram code.1]

/-- The thread, and the last code it should have accepted. -/
structure QrWatch where
  thread : QrThread
  accepted : Option (ℕ × ℕ)

def QrWatch.start : QrWatch := ⟨.start, none⟩

def watchStep (w : QrWatch) (turn : QrTurn) : Option QrWatch :=
  (qrcodeStep w.thread turn).map fun t => ⟨t, acceptedAfter w.accepted turn⟩

/-- In this turn the thread keeps running, and tells main what it is to be told. -/
def KeepsReading (w : QrWatch) (turn : QrTurn) : Prop :=
  ∃ t, qrcodeStep w.thread turn = some t ∧ 0 ≤ t.res ∧
    t.sent = w.thread.sent ++ wanted w.accepted turn

/-- The numbers of the last code accepted, zeros before the first. -/
def lastCode : Option (ℕ × ℕ) → ℤ × ℤ
  | none => (0, 0)
  | some code => (code.1, code.2)

/-- A line the thread gets right, by the code accepted before: a blank one; a code, but zeros
only after another code; or a text without a code that `sscanf` takes for the code accepted
before. -/
def LineRead (accepted : Option (ℕ × ℕ)) (line : CString) : Prop :=
  line = [] ∨ (∃ code, codeOf line = some code ∧ (accepted = none → code ≠ (0, 0))) ∨
    (codeOf line = none ∧ scanCode (toLower line) = some (lastCode accepted))

/-- A block the thread gets right: one that leaves room for the terminator, with such a line. -/
def BlockRead (w : QrWatch) (turn : QrTurn) : Prop :=
  ∃ block, turn.read = some block ∧ block.length < 1024 ∧
    LineRead w.accepted (firstLine block)

/-! ## Codes as `sscanf` reads them -/

lemma codeNumber_eq_some {digits : CString} {n : ℕ} (h : codeNumber digits = some n) :
    digits ≠ [] ∧ (∀ c ∈ digits, c.isDigit = true) ∧ textNat digits < 2 ^ 31 ∧
      textNat digits = n := by
  unfold codeNumber at h
  split_ifs at h with hdigits
  obtain ⟨hne, hall, hint⟩ := hdigits
  exact ⟨hne, List.all_eq_true.mp hall, hint, Option.some.inj h⟩

/-- The parts of a line with a code. -/
lemma codeOf_eq_some {line : CString} {code : ℕ × ℕ} (h : codeOf line = some code) :
    ∃ dorsal dogid ending, codeNumber dorsal = some code.1 ∧ codeNumber dogid = some code.2 ∧
      (ending = "]".toList ∨ ending = "]\r".toList) ∧
      line = "[\"".toList ++ (dorsal ++ '"' :: (",\"".toList ++ (dogid ++ '"' :: ending))) := by
  unfold codeOf at h
  obtain ⟨text₁, hopen, h⟩ := Option.bind_eq_some_iff.mp h
  obtain ⟨⟨dorsal, text₂⟩, hdorsal, h⟩ := Option.bind_eq_some_iff.mp h
  obtain ⟨text₃, hmiddle, h⟩ := Option.bind_eq_some_iff.mp h
  obtain ⟨⟨dogid, ending⟩, hdogid, h⟩ := Option.bind_eq_some_iff.mp h
  obtain ⟨n, hn, h⟩ := Option.bind_eq_some_iff.mp h
  obtain ⟨m, hm, h⟩ := Option.bind_eq_some_iff.mp h
  split_ifs at h with hending
  obtain rfl := Option.some.inj h
  refine ⟨dorsal, dogid, ending, hn, hm, hending, ?_⟩
  rw [scanLiteral_eq_some_iff.mp hopen, (cutAt_eq_some_iff.mp hdorsal).1,
    scanLiteral_eq_some_iff.mp hmiddle, (cutAt_eq_some_iff.mp hdogid).1]

lemma toLower_digits {digits : CString} (h : ∀ c ∈ digits, c.isDigit = true) :
    toLower digits = digits := by
  rw [toLower, List.map_congr_left fun c hc => toLower_of_isDigit (h c hc), List.map_id']

/-- `sscanf` reads the numbers of a code. -/
lemma scanCode_of_codeOf {line : CString} {code : ℕ × ℕ} (h : codeOf line = some code) :
    scanCode (toLower line) = some ((code.1 : ℤ), (code.2 : ℤ)) := by
  obtain ⟨dorsal, dogid, ending, hdorsal, hdogid, -, rfl⟩ := codeOf_eq_some h
  obtain ⟨hne₁, hdigits₁, hint₁, hvalue₁⟩ := codeNumber_eq_some hdorsal
  obtain ⟨hne₂, hdigits₂, hint₂, hvalue₂⟩ := codeNumber_eq_some hdogid
  have hlower : toLower ("[\"".toList ++ (dorsal ++ '"' :: (",\"".toList ++
        (dogid ++ '"' :: ending)))) =
      "[\"".toList ++ (dorsal ++ ("\",\"".toList ++ (dogid ++ '"' :: toLower ending))) := by
    have hfirst := toLower_digits hdigits₁
    have hsecond := toLower_digits hdigits₂
    unfold toLower at hfirst hsecond ⊢
    simp only [List.map_append, List.map_cons, hfirst, hsecond]
    rfl
  have hquote (rest : CString) : EndsNumber ('"' :: rest) := endsNumber_cons.mpr (by decide)
  have hscan₁ := scanInt_digits_append hne₁ hdigits₁ hint₁
    (hquote (",\"".toList ++ (dogid ++ '"' :: toLower ending)))
  have hscan₂ := scanInt_digits_append hne₂ hdigits₂ hint₂ (hquote (toLower ending))
  have hmiddle : scanLiteral "\",\"".toList
      ('"' :: (",\"".toList ++ (dogid ++ '"' :: toLower ending))) =
        some (dogid ++ '"' :: toLower ending) := scanLiteral_eq_some_iff.mpr rfl
  rw [hlower, scanCode, scanLiteral_eq_some_iff.mpr rfl]
  change ((scanInt (dorsal ++ '"' :: (",\"".toList ++ (dogid ++ '"' :: toLower ending)))).bind _) =
    _
  rw [hscan₁]
  simp only [Option.bind_some, hmiddle, hscan₂, hvalue₁, hvalue₂, Option.bind_eq_bind,
    Option.pure_def]

lemma qrcodeParseDorsal_of_codeOf {line : CString} {code : ℕ × ℕ} (h : codeOf line = some code) :
    qrcodeParseDorsal line = ⟨code.1, code.1, code.2⟩ := by
  rw [qrcodeParseDorsal, scanCode_of_codeOf h]

/-! ## A turn -/

/-- The thread is in its loop and remembers the code it should have accepted. -/
structure QrWatch.Remembers (w : QrWatch) : Prop where
  running : 0 ≤ w.thread.res
  numbers : (w.thread.dorsal, w.thread.dogid) = lastCode w.accepted

/-- The thread after a line, in a turn that is not disturbed. -/
def QrThread.afterLine (s : QrThread) (line : CString) (recv : ℤ) : QrThread :=
  let parsed := qrcodeParseDorsal line
  if line = [] then s
  else if parsed.res < 0 ∨ parsed.dorsal = s.dorsal ∧ parsed.dogid = s.dogid then
    { s with res := parsed.res }
  else
    { res := recv
      dorsal := parsed.dorsal
      dogid := parsed.dogid
      sent := s.sent ++ [turnDatagram parsed.dorsal] }

lemma qrcodeStep_undisturbed {s : QrThread} {turn : QrTurn} {block : List Char} (hs : 0 ≤ s.res)
    (hturn : turn.Undisturbed) (hread : turn.read = some block) :
    qrcodeStep s turn =
      if 1024 ≤ block.length then none
      else some (s.afterLine (firstLine block) turn.recv) := by
  unfold qrcodeStep QrThread.afterLine
  rw [if_neg (not_lt.mpr hs), hread]
  dsimp only
  rw [if_neg (not_lt.mpr hturn.send), if_neg (not_lt.mpr hturn.recv),
    if_neg (not_lt.mpr hturn.index)]
  split_ifs <;> first | rfl | (exfalso; tauto)

lemma codeOf_nil : codeOf [] = none := by decide

lemma lastCode_nonneg (accepted : Option (ℕ × ℕ)) : 0 ≤ (lastCode accepted).1 := by
  cases accepted with
  | none => exact Int.le_refl 0
  | some code => exact Int.natCast_nonneg code.1

/-- What is remembered of a code tells it from the others, but the first one may be zeros. -/
lemma lastCode_eq_iff {accepted : Option (ℕ × ℕ)} {code : ℕ × ℕ} :
    ((code.1 : ℤ), (code.2 : ℤ)) = lastCode accepted ↔
      accepted = some code ∨ accepted = none ∧ code = (0, 0) := by
  cases accepted with
  | none => simp [lastCode, Prod.ext_iff]
  | some last =>
    simp only [lastCode, Nat.cast_inj, Option.some.injEq, Prod.ext_iff,
      reduceCtorEq, false_and, or_false]
    exact ⟨fun h => ⟨h.1.symm, h.2.symm⟩, fun h => ⟨h.1.symm, h.2.symm⟩⟩

/-- The thread is right about a line. -/
def RightLine (w : QrWatch) (line : CString) (recv : ℤ) (sent : List CString) : Prop :=
  0 ≤ (w.thread.afterLine line recv).res ∧
    (w.thread.afterLine line recv).sent = w.thread.sent ++ sent

section Line

variable {w : QrWatch} {line : CString} {recv : ℤ}

/-- A code is told to main if it is new to the thread. -/
lemma rightLine_code (hw : w.Remembers) (hrecv : 0 ≤ recv) {code : ℕ × ℕ}
    (hcode : codeOf line = some code) :
    RightLine w line recv (if w.accepted = some code then [] else [turnDatagram code.1]) ↔
      LineRead w.accepted line := by
  have hne : line ≠ [] := by
    rintro rfl
    rw [codeOf_nil] at hcode
    cases hcode
  have hread : LineRead w.accepted line ↔ (w.accepted = none → code ≠ (0, 0)) := by
    simp [LineRead, hne, hcode]
  have hparsed := qrcodeParseDorsal_of_codeOf hcode
  have hdup : ((code.1 : ℤ) = w.thread.dorsal ∧ (code.2 : ℤ) = w.thread.dogid) ↔
      w.accepted = some code ∨ w.accepted = none ∧ code = (0, 0) := by
    rw [← lastCode_eq_iff, ← hw.numbers, Prod.mk.injEq]
  have hnonneg : ¬ (code.1 : ℤ) < 0 := not_lt.mpr (Int.natCast_nonneg code.1)
  rw [hread]
  unfold RightLine QrThread.afterLine
  simp only [hparsed, hne, if_false, hnonneg, false_or, hdup]
  by_cases hsame : w.accepted = some code
  · -- a repeat, which is skipped
    simp [hsame]
  · by_cases hzero : w.accepted = none ∧ code = (0, 0)
    · -- zeros as the first code are taken for a repeat
      obtain ⟨hnone, rfl⟩ := hzero
      simp [hnone]
    · have hnew : w.accepted = none → code ≠ (0, 0) := fun hnone hcode => hzero ⟨hnone, hcode⟩
      simp only [hsame, hzero, or_self, if_false]
      exact iff_of_true ⟨hrecv, trivial⟩ hnew

/-- A text without a code is skipped only if it is taken for the last code. -/
lemma rightLine_no_code (hw : w.Remembers) (hne : line ≠ []) (hcode : codeOf line = none) :
    RightLine w line recv [] ↔ LineRead w.accepted line := by
  have hread : LineRead w.accepted line ↔
      scanCode (toLower line) = some (lastCode w.accepted) := by
    simp [LineRead, hne, hcode]
  rw [hread]
  unfold RightLine QrThread.afterLine qrcodeParseDorsal
  rw [← hw.numbers]
  have hdorsal : 0 ≤ w.thread.dorsal := by
    have hnonneg := lastCode_nonneg w.accepted
    rwa [← hw.numbers] at hnonneg
  cases scanCode (toLower line) with
  | none => simp [hne]
  | some numbers =>
    obtain ⟨dorsal, dogid⟩ := numbers
    by_cases hneg : dorsal < 0
    · -- the loop is left
      have hother : dorsal ≠ w.thread.dorsal := by omega
      simp [hne, hneg, hother]
    · by_cases hdup : dorsal = w.thread.dorsal ∧ dogid = w.thread.dogid
      · obtain ⟨rfl, rfl⟩ := hdup
        simp [hne, hdorsal]
      · simp [hne, hneg, hdup]

/-- After a code the thread has its numbers, new or not. -/
lemma numbers_afterLine_code {s : QrThread} {code : ℕ × ℕ} (hcode : codeOf line = some code) :
    ((s.afterLine line recv).dorsal, (s.afterLine line recv).dogid) = lastCode (some code) := by
  have hne : line ≠ [] := by
    rintro rfl
    rw [codeOf_nil] at hcode
    cases hcode
  have hnonneg : ¬ (code.1 : ℤ) < 0 := not_lt.mpr (Int.natCast_nonneg code.1)
  unfold QrThread.afterLine
  simp only [qrcodeParseDorsal_of_codeOf hcode, hne, if_false, hnonneg, false_or]
  split_ifs with hdup
  · exact Prod.ext hdup.1.symm hdup.2.symm
  · rfl

/-- After a text that is taken for the last code it has the same numbers as before. -/
lemma numbers_afterLine_repeat {s : QrThread}
    (hscan : scanCode (toLower line) = some (s.dorsal, s.dogid)) :
    ((s.afterLine line recv).dorsal, (s.afterLine line recv).dogid) = (s.dorsal, s.dogid) := by
  unfold QrThread.afterLine qrcodeParseDorsal
  simp only [hscan, and_self, or_true, if_true]
  split_ifs <;> rfl

end Line

/-- A turn is right exactly for the blocks that the thread gets right. -/
lemma keepsReading_iff_blockRead {w : QrWatch} (hw : w.Remembers) {turn : QrTurn}
    (hturn : turn.Undisturbed) : KeepsReading w turn ↔ BlockRead w turn := by
  obtain ⟨block, hread, -, -⟩ := hturn.read
  have hblock : BlockRead w turn ↔
      block.length < 1024 ∧ LineRead w.accepted (firstLine block) := by
    simp [BlockRead, hread]
  have hcode : turn.code = codeOf (firstLine block) := by
    rw [QrTurn.code, hread, Option.bind_some]
  rw [hblock, KeepsReading, qrcodeStep_undisturbed hw.running hturn hread]
  by_cases hfull : 1024 ≤ block.length
  · simp [hfull]
  · have hline : (∃ t, some (w.thread.afterLine (firstLine block) turn.recv) = some t ∧
        0 ≤ t.res ∧ t.sent = w.thread.sent ++ wanted w.accepted turn) ↔
        RightLine w (firstLine block) turn.recv (wanted w.accepted turn) := by
      simp [RightLine]
    rw [if_neg hfull, hline, and_iff_right (not_le.mp hfull), wanted, hcode]
    by_cases hne : firstLine block = []
    · -- a blank line changes nothing
      rw [hne, codeOf_nil]
      refine iff_of_true ⟨hw.running, ?_⟩ (Or.inl rfl)
      simp [QrThread.afterLine]
    · cases hfound : codeOf (firstLine block) with
      | none => exact rightLine_no_code hw hne hfound
      | some code => exact rightLine_code hw hturn.recv hfound

/-- After a right turn the thread remembers the last code. -/
lemma remembers_of_keepsReading {w w' : QrWatch} (hw : w.Remembers) {turn : QrTurn}
    (hturn : turn.Undisturbed) (hright : KeepsReading w turn) (hstep : watchStep w turn = some w') :
    w'.Remembers := by
  obtain ⟨block, hread, hroom, hline⟩ := (keepsReading_iff_blockRead hw hturn).mp hright
  obtain ⟨t, ht, hres, -⟩ := hright
  have hcode : turn.code = codeOf (firstLine block) := by
    rw [QrTurn.code, hread, Option.bind_some]
  rw [watchStep, ht, Option.map_some] at hstep
  cases hstep
  rw [qrcodeStep_undisturbed hw.running hturn hread, if_neg (not_le.mpr hroom)] at ht
  cases ht
  refine ⟨hres, ?_⟩
  rw [acceptedAfter, hcode]
  rcases hline with hblank | ⟨code, hfound, -⟩ | ⟨hnone, hscan⟩
  · rw [hblank, codeOf_nil, Option.none_or]
    exact hw.numbers
  · rw [hfound, Option.some_or]
    exact numbers_afterLine_code hfound
  · rw [hnone, Option.none_or, ← hw.numbers]
    exact numbers_afterLine_repeat (hscan.trans (congrArg some hw.numbers.symm))

/-! ## The runs -/

/-- **When a bad code does not stop the reader.** For blocks read one after the other, with
successful exchanges and no exit request, the thread keeps running and tells main exactly the
codes that are not the one accepted before, if and only if each block is one that it gets
right. -/
theorem keepsReading_iff (turns : List QrTurn) (hturns : ∀ turn ∈ turns, turn.Undisturbed) :
    AtEach watchStep KeepsReading .start turns ↔ AtEach watchStep BlockRead .start turns :=
  atEach_iff_of_inv (J := QrWatch.Remembers) (P := QrTurn.Undisturbed)
    (fun _ _ hw hturn => keepsReading_iff_blockRead hw hturn)
    (fun _ _ _ hw hturn hright hstep => remembers_of_keepsReading hw hturn hright hstep)
    ⟨Int.le_refl 0, rfl⟩ hturns

/-- A turn with these bytes in which nothing goes wrong. -/
def QrTurn.of (block : List Char) : QrTurn := ⟨some block, 30, 3, 5⟩

lemma undisturbed_of {block : List Char} (hne : block ≠ []) (hlen : block.length ≤ 1024) :
    (QrTurn.of block).Undisturbed :=
  ⟨⟨block, rfl, hne, hlen⟩, Int.natCast_nonneg 30, Int.natCast_nonneg 3, Int.natCast_nonneg 5⟩

/-- A code, and the same again. -/
def codeTwice : List QrTurn :=
  [.of "[\"12\",\"345\"]\n".toList, .of "[\"12\",\"345\"]\r\n".toList]

/-- Both are read as they should be. -/
theorem keepsReading_iff_codeTwice : AtEach watchStep KeepsReading .start codeTwice := by
  have hturns : ∀ turn ∈ codeTwice, turn.Undisturbed := by
    refine List.forall_mem_cons.mpr ⟨undisturbed_of (List.cons_ne_nil _ _) (by decide), ?_⟩
    exact List.forall_mem_singleton.mpr (undisturbed_of (List.cons_ne_nil _ _) (by decide))
  refine (keepsReading_iff codeTwice hturns).mpr ⟨?_, fun w _ => ⟨?_, fun _ _ => trivial⟩⟩
  · exact ⟨_, rfl, by decide, Or.inr (Or.inl ⟨(12, 345), by decide, fun _ => by decide⟩)⟩
  · exact ⟨_, rfl, by decide, Or.inr (Or.inl ⟨(12, 345), by decide, fun _ => by decide⟩)⟩

/-- A line that is no code: the thread is over. -/
theorem keepsReading_malformed :
    ¬ ∀ turns : List QrTurn, (∀ turn ∈ turns, turn.Undisturbed) →
      AtEach watchStep KeepsReading .start turns := by
  intro h
  have hturns : ∀ turn ∈ [QrTurn.of "hello\n".toList], turn.Undisturbed :=
    List.forall_mem_singleton.mpr (undisturbed_of (List.cons_ne_nil _ _) (by decide))
  obtain ⟨⟨t, ht, hres, -⟩, -⟩ := h _ hturns
  have hstopped : qrcodeStep .start (.of "hello\n".toList) = some ⟨-1, 0, 0, []⟩ := by decide
  obtain rfl : ⟨-1, 0, 0, []⟩ = t := Option.some.inj (hstopped.symm.trans ht)
  exact absurd hres (by decide)

end SerialChrono
