import SerialChrono.MainLoop
import SerialChrono.Managers.Serial

/-!
# The chronometer on the network (`net_mgr.c`)

The network manager takes the place of the serial manager when the chronometer is on the
network, and its handlers are those of the serial manager with another name for the source; it
passes `config` and `status` on too.  What `module_read` leaves in the buffer goes to the main
thread as a line of the network manager.
-/

namespace SerialChrono

open CText

/-! ## What the chronometer is told -/

/-- A handler that passes the command on as it is. -/
def netMgrWrite (tokens : Tokens) (ntokens : ℕ) : SerialCall :=
  if fromSource scNetwork tokens then .returns 0 else .moduleWrite tokens ntokens

/-- A handler that adds a third token to a line of two. -/
def netMgrDefault (dflt : CString) (tokens : Tokens) (ntokens : ℕ) : SerialCall :=
  if fromSource scNetwork tokens then .returns 0
  else if ntokens = 2 then .moduleWrite (tokens.take 2 ++ dflt :: tokens.drop 3) 3
  else .moduleWrite tokens ntokens

/-- A handler for what the chronometer only reports. -/
def netMgrReadOnly (_tokens : Tokens) (_ntokens : ℕ) : SerialCall := .returns 0

def netMgrStart : Tokens → ℕ → SerialCall := netMgrDefault "0".toList

def netMgrInt : Tokens → ℕ → SerialCall := netMgrWrite

def netMgrStop : Tokens → ℕ → SerialCall := netMgrWrite

def netMgrFail : Tokens → ℕ → SerialCall := netMgrReadOnly

def netMgrOk : Tokens → ℕ → SerialCall := netMgrReadOnly

def netMgrMsg : Tokens → ℕ → SerialCall := netMgrWrite

def netMgrWalk : Tokens → ℕ → SerialCall := netMgrDefault "420".toList

def netMgrDown : Tokens → ℕ → SerialCall := netMgrDefault "15".toList

def netMgrFault : Tokens → ℕ → SerialCall := netMgrDefault "+".toList

def netMgrRefusal : Tokens → ℕ → SerialCall := netMgrDefault "+".toList

def netMgrElim : Tokens → ℕ → SerialCall := netMgrDefault "+".toList

def netMgrData : Tokens → ℕ → SerialCall := netMgrWrite

def netMgrReset : Tokens → ℕ → SerialCall := netMgrWrite

def netMgrExit (tokens : Tokens) (_ntokens : ℕ) : SerialCall :=
  if fromSource scNetwork tokens then .returns 0 else .returns (-1)

def netMgrNumero : Tokens → ℕ → SerialCall := netMgrDefault "+".toList

def netMgrConfig : Tokens → ℕ → SerialCall := netMgrWrite

def netMgrStatus : Tokens → ℕ → SerialCall := netMgrWrite

def netMgrBright : Tokens → ℕ → SerialCall := netMgrDefault "+".toList

def netMgrClock : Tokens → ℕ → SerialCall := netMgrWrite

/-- The table `entries` of the network manager. -/
def netMgrEntries : Command → Option (Tokens → ℕ → SerialCall)
  | .start => some netMgrStart
  | .int => some netMgrInt
  | .stop => some netMgrStop
  | .fail => some netMgrFail
  | .ok => some netMgrOk
  | .msg => some netMgrMsg
  | .walk => some netMgrWalk
  | .down => some netMgrDown
  | .fault => some netMgrFault
  | .refusal => some netMgrRefusal
  | .elim => some netMgrElim
  | .data => some netMgrData
  | .reset => some netMgrReset
  | .exit => some netMgrExit
  | .config => some netMgrConfig
  | .status => some netMgrStatus
  | .turn => some netMgrNumero
  | .bright => some netMgrBright
  | .clock => some netMgrClock
  | .help | .version | .server | .ports | .debug => none

/-- What comes from the chronometer does not go back to it. -/
theorem netMgrEntries_own {c : Command} {f : Tokens → ℕ → SerialCall}
    (hf : netMgrEntries c = some f) {tokens : Tokens} (htokens : fromSource scNetwork tokens = true)
    (ntokens : ℕ) : f tokens ntokens = .returns 0 := by
  rcases c <;> cases hf <;>
    simp only [netMgrStart, netMgrInt, netMgrStop, netMgrFail, netMgrOk, netMgrMsg, netMgrWalk,
      netMgrDown, netMgrFault, netMgrRefusal, netMgrElim, netMgrData, netMgrReset, netMgrExit,
      netMgrNumero, netMgrConfig, netMgrStatus, netMgrBright, netMgrClock, netMgrWrite,
      netMgrDefault, netMgrReadOnly, htokens, if_true]

/-- A handler with a default keeps the source and the word of the line. -/
lemma netMgrDefault_eq {source : CString} (hsource : source ≠ scNetwork) (dflt word : CString)
    (args : Tokens) (ntokens : ℕ) :
    ∃ args' ntokens', netMgrDefault dflt (source :: word :: args) ntokens =
      .moduleWrite (source :: word :: args') ntokens' := by
  have hother : fromSource scNetwork (source :: word :: args) = false :=
    beq_eq_false_iff_ne.mpr fun h => hsource (Option.some.inj h)
  unfold netMgrDefault
  rw [hother, if_neg Bool.false_ne_true]
  split_ifs
  · exact ⟨_, _, rfl⟩
  · exact ⟨_, _, rfl⟩

/-! ## What the chronometer tells -/

/-- The lines of the network thread. -/
def networkLine : CString → Option CString := driverLine scNetwork

end SerialChrono
