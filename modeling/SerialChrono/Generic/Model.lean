import SerialChrono.Library.CBuffer
import SerialChrono.Managers.Serial

/-!
# The generic chronometer (`modules/generic.c`)

The driver of the chronometers that speak the protocol of this program: `module_write` sends the
command in capitals with its arguments, as a line, and `module_read` waits for a line.  Each has a
buffer of its own that lasts from one call to the next; `module_read` clears it first, and
`module_write` does not.

The port is the list of what `sp_blocking_read` comes back with, one byte at a time.  `none` is a
read that still waits, or a store past the end of a buffer.
-/

namespace SerialChrono

open CText CBuffer

/-! ## `module_write` -/

/-- The loop that copies the command word in capitals; `len` is the index it has reached. -/
def writeUpper (buffer : Buffer 1024) : (cmd : CString) → (len : ℕ) → Option (Buffer 1024 × ℕ)
  | [], len => some (buffer, len)
  | c :: cmd, len => do
    let buffer ← buffer.store len [c.toUpper]
    writeUpper buffer cmd (len + 1)

/-- The loop that prints the arguments, each after a blank. -/
def writeArgs (buffer : Buffer 1024) : (args : Tokens) → (len : ℕ) → Option (Buffer 1024 × ℕ)
  | [], len => some (buffer, len)
  | arg :: args, len => do
    let buffer ← buffer.print len (' ' :: arg)
    writeArgs buffer args (len + (' ' :: arg).length)

/-- `module_write`: the static buffer afterwards, and the bytes that go to the port. -/
def genericWrite (buffer : Buffer 1024) (tokens : Tokens) (ntokens : ℕ) :
    Option (Buffer 1024 × List Char) := do
  let cmd ← tokens[1]?
  let (buffer, len) ← writeUpper buffer cmd 0
  let (buffer, len) ← writeArgs buffer ((tokens.take ntokens).drop 2) len
  let buffer ← buffer.print len "\r\n".toList
  return (buffer, buffer.text)

/-! ## `module_read` -/

/-- What `sp_blocking_read` of one byte comes back with. -/
inductive PortRead
  | byte (c : Char)
  | error (code : ℤ) (negative : code < 0)

/-- The local variables of the loop. -/
structure Reading where
  inbuff : Buffer 1024
  pt : ℕ
  ret : ℤ

/-- One pass of the loop.  A carriage return is left at `pt`, for the next byte to go there. -/
def readByte (s : Reading) (r : PortRead) : Option Reading := do
  let (ret, inbuff) ← match r with
    | .byte c => (s.inbuff.store s.pt [c]).map fun inbuff => ((1 : ℤ), inbuff)
    | .error code _ => some (code, s.inbuff)
  if inbuff.get s.pt = some '\r' then return { s with inbuff, ret }
  let ret := if inbuff.get s.pt = some '\n' then 0 else ret
  if s.pt = 1022 then
    let inbuff ← inbuff.store s.pt ['\n']
    return { inbuff, pt := s.pt + 1, ret := 0 }
  return { inbuff, pt := s.pt + 1, ret }

/-- `do ... while (ret>0)`, with what is left on the port. -/
def readLoop : List PortRead → Reading → Option (Reading × List PortRead)
  | [], _ => none
  | r :: port, s => (readByte s r).bind fun s =>
    if 0 < s.ret then readLoop port s else some (s, port)

/-- What `module_read` returns, and the text it has left in the buffer of its caller, empty after
an error. -/
structure DriverRead where
  res : ℤ
  text : CString

/-- `module_read`, for a buffer of `length` bytes. -/
def genericRead (length : ℕ) (port : List PortRead) : Option (DriverRead × List PortRead) := do
  let (s, port) ← readLoop port { inbuff := Buffer.zero 1024, pt := 0, ret := 1 }
  if s.ret < 0 then return ({ res := s.ret, text := [] }, port)
  return ({ res := s.inbuff.text.length, text := s.inbuff.text.take (length - 1) }, port)

/-! ## The thread -/

/-- The part of `request` that stays: the source and a blank. -/
def requestPrefix : CString := scSerial ++ " ".toList

/-- A turn of the loop of `serial_manager_thread` after `module_read` has returned, until it sends:
the request buffer afterwards, and the datagram, if there is one. -/
def serialTurn (request : Buffer 1024) (read : DriverRead) :
    Option (Buffer 1024 × Option CString) := do
  if read.res < 0 then return (request, none)
  let request ← request.print requestPrefix.length read.text
  let request ← request.store (requestPrefix.length + read.res.toNat) ['\x00']
  let line := request.text.takeWhile (· ≠ '\n')
  let request ← request.store line.length ['\x00']
  if line.drop requestPrefix.length = [] then return (request, none)
  return (request, some line)

/-! ## The main thread -/

/-- The tokens main looks its command up with. -/
def mainTokens (buffer : CString) : Option Tokens := do
  let tokens ← explode buffer ' '
  let word ← tokens[1]?
  return tokens.set 1 (toLower word)

end SerialChrono
