import SerialChrono.MainMgr

/-!
# What the browsers are told (`web_mgr.c`)

A handler of the web manager answers with the length of a message, and puts the message on the
output queue the browsers poll.  A command that came from a browser is not sent back.
-/

namespace SerialChrono

open CText

/-- What a handler of the web manager does: its result, and the message it queues. -/
structure WebCall where
  res : ℤ
  queued : Option CString
  deriving DecidableEq, Repr

def WebCall.ignored : WebCall := ⟨0, none⟩

def WebCall.send (message : CString) : WebCall := ⟨message.length, some message⟩

/-- The text of a command without its source: its tokens joined by blanks. -/
def joinTokens (tokens : Tokens) (ntokens : ℕ) : Option CString := do
  let cmd ← tokens[1]?
  return cmd ++ ((tokens.take ntokens).drop 2).flatMap fun token => ' ' :: token

/-- The test all the handlers begin with: a command goes to every manager but its source. -/
def fromSource (source : CString) (tokens : Tokens) : Bool := tokens.head? == some source

def webMgrSendMsg (_config : Configuration) (tokens : Tokens) (ntokens : ℕ) : Option WebCall :=
  if fromSource scWebsrv tokens then some .ignored
  else (joinTokens tokens ntokens).map .send

/-- `start`, `walk` and `down`: a line of three tokens is passed on, and any other one is sent
with its default. -/
def webMgrSendDefault (dflt : CString) (config : Configuration) (tokens : Tokens)
    (ntokens : ℕ) : Option WebCall :=
  if fromSource scWebsrv tokens then some .ignored
  else if ntokens = 3 then webMgrSendMsg config tokens ntokens
  else some (.send dflt)

def webMgrSendStart : Configuration → Tokens → ℕ → Option WebCall :=
  webMgrSendDefault "start 0".toList

def webMgrSendWalk : Configuration → Tokens → ℕ → Option WebCall :=
  webMgrSendDefault "walk 420".toList

def webMgrSendDown : Configuration → Tokens → ℕ → Option WebCall :=
  webMgrSendDefault "down 15".toList

def webMgrSendTurn (config : Configuration) (tokens : Tokens) (_ntokens : ℕ) : Option WebCall :=
  if fromSource scWebsrv tokens then some .ignored
  else some (.send ("turn ".toList ++ printInt config.status.numero))

def webMgrSendBright (config : Configuration) (tokens : Tokens) (_ntokens : ℕ) :
    Option WebCall :=
  if fromSource scWebsrv tokens then some .ignored
  else some (.send ("bright ".toList ++ printInt config.bright))

def webMgrExit (_config : Configuration) (_tokens : Tokens) (_ntokens : ℕ) : Option WebCall :=
  some ⟨-1, none⟩

/-- The table `entries` of the web manager. -/
def webMgrEntries : Command → Option (Configuration → Tokens → ℕ → Option WebCall)
  | .start => some webMgrSendStart
  | .int | .stop | .fail | .ok | .msg | .reset => some webMgrSendMsg
  | .walk => some webMgrSendWalk
  | .down => some webMgrSendDown
  | .exit => some webMgrExit
  | .turn => some webMgrSendTurn
  | .bright => some webMgrSendBright
  | .fault | .refusal | .elim | .data | .help | .version | .server | .ports | .config | .status
  | .clock | .debug => none

end SerialChrono
