import SerialChrono.MainLoop
import SerialChrono.Managers.Serial

/-!
# The Digican chronometer (`digican.c`)

The chronometer is told what to do by frames that end in `$`, and tells what it does by frames
without an end.  Its counters cannot be set, only moved one by one, so that the driver keeps
`digican_faltas` and `digican_rehuses`, what it thinks the chronometer shows.

`moduleRead` is `module_read` from what the serial port has received on; `moduleWrite` is
`module_write` up to what it gives to the serial port.  Both fill static buffers of 1024
characters and do not look at their end; beyond it there is no defined result.
-/

namespace SerialChrono

open CText

namespace Digican

/-! ## `module_read` -/

/-- The `stop` command for a number of hundredths of a second. -/
def stopText (number : CString) : Option CString :=
  let elapsed := 10 * atoi number
  if IsInt elapsed then some ("stop ".toList ++ printInt elapsed ++ "\n".toList) else none

/-- `module_read`: what it leaves in the buffer, whose length it returns.  The port has received
some bytes, or the reading has failed; while nothing comes, it reads again. -/
def moduleRead (length : ℕ) (received : Option (List Char)) : Option CString :=
  match received with
  | none => some []
  | some bytes =>
    if bytes.length < 1024 then
      let inbuff := cstr bytes
      let text :=
        if "START".toList <+: inbuff then some "start 0\n".toList
        else if "PARAR".toList <+: inbuff then stopText (inbuff.drop 5)
        else if "RESET".toList <+: inbuff then some "reset\n".toList
        else if "INICI".toList <+: inbuff then some "down\n".toList
        else if "ELIMI".toList <+: inbuff then some "elim\n".toList
        else if inbuff.head?.any Char.isDigit then stopText inbuff
        else some []
      text.map (·.take (length - 1))
    else none

/-! ## `module_write` -/

/-- The counters `digican_faltas` and `digican_rehuses`. -/
structure Counters where
  faltas : ℤ
  rehuses : ℤ
  deriving DecidableEq, Repr

def Counters.zero : Counters := ⟨0, 0⟩

/-- The two loops that bring a counter from `cur` to `target`: the frames they write and the
counter they leave.  Which of them runs depends on `bound`; each turn writes a frame and moves
the counter by one. -/
def countLoops (frame : CString) (bound target cur : ℤ) : CString × ℤ :=
  if cur < bound then
    let turns := (target - cur).toNat
    ((List.replicate turns (frame ++ "+$".toList)).flatten, cur + turns)
  else
    let turns := (cur - target).toNat
    ((List.replicate turns (frame ++ "-$".toList)).flatten, cur - turns)

/-- The text `%04d` prints. -/
def printInt4 (x : ℤ) : CString :=
  if x < 0 then '-' :: (printNat x.natAbs).leftpad 3 '0' else (printNat x.natAbs).leftpad 4 '0'

/-- The frame for the end of a run; the hundredths go through an `int`. -/
def stopFrame (status : Status) : CString :=
  "PARAR".toList ++ printInt4 (toInt32 ((status.stopTime - status.startTime).tdiv 10)) ++
    "$".toList

/-- What `module_write` returns. -/
inductive Written
  | returns (res : ℤ)
  /-- What `sp_blocking_write` returns for this text. -/
  | blockingWrite (buffer : CString)
  deriving DecidableEq, Repr

/-- The end of `module_write`: the buffer goes to the serial port. -/
def writeBuffer (buffer : CString) (s : Counters) : Option (Written × Counters) :=
  if buffer.length < 1024 then some (.blockingWrite buffer, s) else none

/-- `fault`.  The comparison leaves the touchs out. -/
def writeFault (status : Status) (s : Counters) : Option (Written × Counters) :=
  let ft := status.faults + status.touchs
  let (buffer, faltas) := countLoops "FALT".toList status.faults ft s.faltas
  writeBuffer buffer { s with faltas }

def writeRefusal (status : Status) (s : Counters) : Option (Written × Counters) :=
  let (buffer, rehuses) := countLoops "REHU".toList status.refusals status.refusals s.rehuses
  writeBuffer buffer { s with rehuses }

def writeData (status : Status) (s : Counters) : Option (Written × Counters) :=
  let ft := status.faults + status.touchs
  let (faults, faltas) := countLoops "FALT".toList ft ft s.faltas
  let (refusals, rehuses) := countLoops "REHU".toList status.refusals status.refusals s.rehuses
  let elim := if status.eliminated ≠ 0 then "ELIMI$".toList else []
  writeBuffer (faults ++ refusals ++ elim) ⟨faltas, rehuses⟩

/-- `module_write`.  The commands the chronometer does not know are reported and then nothing is
written; the words that are not in the chain of comparisons end at once. -/
def moduleWrite (config : Configuration) (tokens : Tokens) (s : Counters) :
    Option (Written × Counters) := do
  let cmd ← tokens[1]?
  match findCommand (toLower cmd) with
  | some .start => writeBuffer "START$".toList s
  | some .int => writeBuffer "TEMPI$".toList s
  | some .stop => writeBuffer (stopFrame config.status) s
  | some .walk => writeBuffer "RECON$".toList s
  | some .down => writeBuffer "INICI$".toList s
  | some .fault => writeFault config.status s
  | some .refusal => writeRefusal config.status s
  | some .elim => writeBuffer "ELIMI$".toList s
  | some .data => writeData config.status s
  | some .reset => writeBuffer "RESET$".toList .zero
  | some .clock => writeBuffer "RELOJ$".toList .zero
  | some .fail | some .ok | some .msg | some .help | some .version | some .exit | some .server
  | some .ports | some .config | some .status | some .turn => writeBuffer [] s
  | some .bright | some .debug | none => return (.returns 0, s)

/-- The length the serial thread gives to `module_read`: what is left of a buffer of 1024 after
the name of the source and a blank. -/
def readLength : ℕ := 1012

end Digican

end SerialChrono
