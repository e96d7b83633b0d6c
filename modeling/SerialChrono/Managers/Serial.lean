import SerialChrono.MainLoop
import SerialChrono.Managers.Web

/-!
# The chronometer on a serial port (`serial_mgr.c`)

A handler of the serial manager gives the tokens of the command to the driver of the
chronometer, with a default for an argument that is missing.  The default is stored in the
token array itself, which main hands to the next threads; their `ntokens` is still the old one.
What the driver reads goes to the main thread as a line of the serial manager.
-/

namespace SerialChrono

open CText

/-! ## What the chronometer is told -/

/-- What a handler of the serial manager does. -/
inductive SerialCall
  /-- It returns at once. -/
  | returns (res : ℤ)
  /-- It returns what `module_write` returns for these tokens. -/
  | moduleWrite (tokens : Tokens) (ntokens : ℕ)
  deriving DecidableEq, Repr

/-- The token array after the handler. -/
def SerialCall.tokensAfter (tokens : Tokens) : SerialCall → Tokens
  | .returns _ => tokens
  | .moduleWrite tokens _ => tokens

/-- A handler that passes the command on as it is. -/
def serialMgrWrite (tokens : Tokens) (ntokens : ℕ) : SerialCall :=
  if fromSource scSerial tokens then .returns 0 else .moduleWrite tokens ntokens

/-- A handler that adds a third token to a line of two. -/
def serialMgrDefault (dflt : CString) (tokens : Tokens) (ntokens : ℕ) : SerialCall :=
  if fromSource scSerial tokens then .returns 0
  else if ntokens = 2 then .moduleWrite (tokens.take 2 ++ dflt :: tokens.drop 3) 3
  else .moduleWrite tokens ntokens

/-- A handler for what the chronometer only reports. -/
def serialMgrReadOnly (_tokens : Tokens) (_ntokens : ℕ) : SerialCall := .returns 0

def serialMgrStart : Tokens → ℕ → SerialCall := serialMgrDefault "0".toList

def serialMgrInt : Tokens → ℕ → SerialCall := serialMgrWrite

def serialMgrStop : Tokens → ℕ → SerialCall := serialMgrWrite

def serialMgrFail : Tokens → ℕ → SerialCall := serialMgrReadOnly

def serialMgrOk : Tokens → ℕ → SerialCall := serialMgrReadOnly

def serialMgrMsg : Tokens → ℕ → SerialCall := serialMgrWrite

def serialMgrWalk : Tokens → ℕ → SerialCall := serialMgrDefault "420".toList

def serialMgrDown : Tokens → ℕ → SerialCall := serialMgrDefault "15".toList

def serialMgrFault : Tokens → ℕ → SerialCall := serialMgrDefault "+".toList

def serialMgrRefusal : Tokens → ℕ → SerialCall := serialMgrDefault "+".toList

def serialMgrElim : Tokens → ℕ → SerialCall := serialMgrDefault "+".toList

def serialMgrData : Tokens → ℕ → SerialCall := serialMgrWrite

def serialMgrReset : Tokens → ℕ → SerialCall := serialMgrWrite

def serialMgrExit (tokens : Tokens) (_ntokens : ℕ) : SerialCall :=
  if fromSource scSerial tokens then .returns 0 else .returns (-1)

def serialMgrNumero : Tokens → ℕ → SerialCall := serialMgrDefault "+".toList

def serialMgrBright : Tokens → ℕ → SerialCall := serialMgrDefault "+".toList

def serialMgrClock : Tokens → ℕ → SerialCall := serialMgrWrite

/-- The table `entries` of the serial manager. -/
def serialMgrEntries : Command → Option (Tokens → ℕ → SerialCall)
  | .start => some serialMgrStart
  | .int => some serialMgrInt
  | .stop => some serialMgrStop
  | .fail => some serialMgrFail
  | .ok => some serialMgrOk
  | .msg => some serialMgrMsg
  | .walk => some serialMgrWalk
  | .down => some serialMgrDown
  | .fault => some serialMgrFault
  | .refusal => some serialMgrRefusal
  | .elim => some serialMgrElim
  | .data => some serialMgrData
  | .reset => some serialMgrReset
  | .exit => some serialMgrExit
  | .turn => some serialMgrNumero
  | .bright => some serialMgrBright
  | .clock => some serialMgrClock
  | .help | .version | .server | .ports | .config | .status | .debug => none

/-- What the handler of the serial manager does with a line, if there is one. -/
def serialCall (command : Command) (tokens : Tokens) : Option SerialCall :=
  (serialMgrEntries command).map fun f => f tokens tokens.length

/-- What comes from the chronometer does not go back to it. -/
theorem serialMgrEntries_own {c : Command} {f : Tokens → ℕ → SerialCall}
    (hf : serialMgrEntries c = some f) {tokens : Tokens}
    (htokens : fromSource scSerial tokens = true) (ntokens : ℕ) : f tokens ntokens = .returns 0 := by
  rcases c <;> cases hf <;>
    simp only [serialMgrStart, serialMgrInt, serialMgrStop, serialMgrFail, serialMgrOk,
      serialMgrMsg, serialMgrWalk, serialMgrDown, serialMgrFault, serialMgrRefusal, serialMgrElim,
      serialMgrData, serialMgrReset, serialMgrExit, serialMgrNumero, serialMgrBright,
      serialMgrClock, serialMgrWrite, serialMgrDefault, serialMgrReadOnly, htokens, if_true]

/-- A handler that goes on to the driver leaves the word of the command in its place. -/
lemma serialMgrWrite_word {source word : CString} {args tokens : Tokens} {n m : ℕ}
    (h : serialMgrWrite (source :: word :: args) n = .moduleWrite tokens m) :
    tokens[1]? = some word := by
  unfold serialMgrWrite at h
  split_ifs at h
  cases h
  rfl

lemma serialMgrDefault_word {dflt source word : CString} {args tokens : Tokens} {n m : ℕ}
    (h : serialMgrDefault dflt (source :: word :: args) n = .moduleWrite tokens m) :
    tokens[1]? = some word := by
  unfold serialMgrDefault at h
  split_ifs at h
  · cases h
    rfl
  · cases h
    rfl

lemma serialCall_word {c : Command} {source word : CString} {args tokens : Tokens} {n : ℕ}
    (h : serialCall c (source :: word :: args) = some (.moduleWrite tokens n)) :
    tokens[1]? = some word := by
  obtain ⟨f, hf, h⟩ := Option.map_eq_some_iff.mp h
  cases c with
  | fail | ok =>
    cases hf
    cases h
  | exit =>
    cases hf
    unfold serialMgrExit at h
    split_ifs at h
  | int | stop | msg | data | reset | clock =>
    cases hf
    exact serialMgrWrite_word h
  | start | walk | down | fault | refusal | elim | turn | bright =>
    cases hf
    exact serialMgrDefault_word h
  | help | version | server | ports | config | status | debug => cases hf

/-- What the driver is told does not come from the chronometer. -/
lemma serialCall_source {c : Command} {source : CString} {args tokens : Tokens} {n : ℕ}
    (h : serialCall c (source :: args) = some (.moduleWrite tokens n)) : source ≠ scSerial := by
  rintro rfl
  obtain ⟨f, hf, h⟩ := Option.map_eq_some_iff.mp h
  rw [serialMgrEntries_own hf (beq_self_eq_true _)] at h
  cases h

/-! ## What the chronometer tells -/

/-- The line the thread of a driver makes of what `module_read` has left in the buffer: up to the
end of the line, and nothing if that is empty. -/
def driverLine (source text : CString) : Option CString :=
  let body := text.takeWhile (· ≠ '\n')
  if body = [] then none else some (source ++ ' ' :: body)

/-- The lines of the serial thread. -/
def serialLine : CString → Option CString := driverLine scSerial

lemma driverLine_of_line (source : CString) {body : CString} (hbody : '\n' ∉ body)
    (hne : body ≠ []) :
    driverLine source (body ++ "\n".toList) = some (source ++ ' ' :: body) ∧
      driverLine source body = some (source ++ ' ' :: body) := by
  have hend : (body ++ "\n".toList).takeWhile (· ≠ '\n') = body :=
    (takeWhile_ne_append hbody _).trans (List.append_nil body)
  unfold driverLine
  rw [hend, takeWhile_ne_self hbody]
  exact ⟨if_neg hne, if_neg hne⟩

lemma receive_eq {datagram buffer : CString} (hnul : '\x00' ∉ datagram)
    (h : receive datagram = some buffer) : buffer = datagram := by
  unfold receive at h
  split_ifs at h
  cases h
  exact takeWhile_ne_self hnul

/-- A line that comes from this source, if it is a command. -/
def OwnLine (source : CString) (datagram : List Char) : Prop :=
  ∀ buffer command tokens, receive datagram = some buffer →
    parseLine buffer = some (.command command tokens) → fromSource source tokens = true

lemma ownLine_driverLine {source text line : CString} (hblank : ' ' ∉ source)
    (hnul : '\x00' ∉ source) (h : driverLine source text = some line) : OwnLine source line := by
  intro buffer command tokens hreceive hline
  let body := text.takeWhile (· ≠ '\n')
  have hbody : (if body = [] then none else some (source ++ ' ' :: body)) = some line := h
  unfold receive at hreceive
  split_ifs at hbody
  split_ifs at hreceive
  cases hbody
  have hbuffer : buffer = source ++ ' ' :: cstr body := by
    rw [← Option.some.inj hreceive, cstr, takeWhile_ne_append hnul]
    rfl
  rw [hbuffer] at hline
  exact beq_iff_eq.mpr (parseLine_source hblank hline)

end SerialChrono
