import SerialChrono.Config
import SerialChrono.Tools

/-!
# Commands and their handlers in the main thread (`parser.c`, `main_mgr.c`)

`Command` is `command_list` and `mainMgrEntries` the table `main_mgr_entries`: what the main
thread does to the configuration for each command.  A handler receives the whole token array,
source first, and the number of tokens; it answers a C `int`, negative for an error, with the
configuration it leaves.  `none` is the dereference of a null pointer: an argument that was not
sent, or a separator that was not found.

`main_mgr_entries` has one entry more than `command_list`, for `dorsal` at index 24, which no
command name leads to; it is left out.
-/

namespace SerialChrono

open CText

/-! ## Sources

The first token of a line names the thread that sent it (`main.h`). -/

def scConsole : CString := "user_server".toList

def scWebsrv : CString := "web_server".toList

def scAjaxsrv : CString := "ac_server".toList

def scSerial : CString := "comm_server".toList

def scNetwork : CString := "net_server".toList

/-! ## `command_list` -/

/-- The commands, in the order of `command_list`. -/
inductive Command
  | start | int | stop | fail | ok | msg | walk | down | fault | refusal | elim | data | reset
  | help | version | exit | server | ports | config | status | turn | bright | clock | debug
  deriving DecidableEq, Repr

/-- The name of a command in `command_list`. -/
def Command.cmd : Command → CString
  | .start => "start".toList
  | .int => "int".toList
  | .stop => "stop".toList
  | .fail => "fail".toList
  | .ok => "ok".toList
  | .msg => "msg".toList
  | .walk => "walk".toList
  | .down => "down".toList
  | .fault => "fault".toList
  | .refusal => "refusal".toList
  | .elim => "elim".toList
  | .data => "data".toList
  | .reset => "reset".toList
  | .help => "help".toList
  | .version => "version".toList
  | .exit => "exit".toList
  | .server => "server".toList
  | .ports => "ports".toList
  | .config => "config".toList
  | .status => "status".toList
  | .turn => "turn".toList
  | .bright => "bright".toList
  | .clock => "clock".toList
  | .debug => "debug".toList

def commandList : List Command :=
  [.start, .int, .stop, .fail, .ok, .msg, .walk, .down, .fault, .refusal, .elim, .data, .reset,
    .help, .version, .exit, .server, .ports, .config, .status, .turn, .bright, .clock, .debug]

/-- The search of `command_list` for a word. -/
def findCommand (word : CString) : Option Command := commandList.find? fun c => c.cmd == word

lemma findCommand_eq_some {word : CString} {c : Command} (h : findCommand word = some c) :
    word = c.cmd := by
  have := List.find?_some h
  exact (beq_iff_eq.mp this).symm

@[simp] lemma findCommand_cmd (c : Command) : findCommand c.cmd = some c := by
  cases c <;> rfl

@[simp] lemma toLower_cmd (c : Command) : toLower c.cmd = c.cmd := by
  cases c <;> rfl

lemma findCommand_toLower_cmd (c : Command) : findCommand (toLower c.cmd) = some c := by
  rw [toLower_cmd, findCommand_cmd]

/-! ## Counter arguments -/

/-- The argument of the commands that move a counter: `+`, `-` or an absolute value. -/
inductive CountArg
  | inc
  | dec
  | set (n : ℤ)
  deriving DecidableEq, Repr

def parseCountArg (arg : CString) : CountArg :=
  if arg = "+".toList then .inc else if arg = "-".toList then .dec else .set (atoi arg)

/-- Only a command of exactly three tokens has an argument; any other one increments. -/
def countArg (tokens : Tokens) (ntokens : ℕ) : Option CountArg :=
  if ntokens = 3 then tokens[2]?.map parseCountArg else some .inc

def CountArg.apply : CountArg → ℤ → ℤ
  | .inc, x => x + 1
  | .dec, x => x - 1
  | .set n, _ => n

/-! ## The handlers -/

/-- What a handler of the main thread returns: its result and the configuration it leaves. -/
abbrev MainResult := Option (ℤ × Configuration)

/-- A handler that only writes to the log (`mainMgrLog`). -/
def mainMgrReport (config : Configuration) : MainResult := some (0, config)

def mainMgrStart (config : Configuration) (tokens : Tokens) (ntokens : ℕ) : MainResult := do
  let start ← if ntokens = 2 then some 0 else tokens[2]?.map strtol
  return (0, { config with status.startTime := start })

def mainMgrInt (config : Configuration) (tokens : Tokens) (ntokens : ℕ) : MainResult :=
  if config.status.startTime < 0 then some (-1, config)
  else if ntokens = 2 then some (-1, config)
  else tokens[2]?.map fun t => (0, { config with status.intTime := strtol t })

def mainMgrStop (config : Configuration) (tokens : Tokens) (ntokens : ℕ) : MainResult :=
  if config.status.startTime < 0 then some (-1, config)
  else if ntokens = 2 then some (-1, config)
  else tokens[2]?.map fun t => (0, { config with status.stopTime := strtol t })

def mainMgrFail (config : Configuration) (_tokens : Tokens) (_ntokens : ℕ) : MainResult :=
  mainMgrReport config

def mainMgrOk (config : Configuration) (_tokens : Tokens) (_ntokens : ℕ) : MainResult :=
  mainMgrReport config

def mainMgrMsg (config : Configuration) (_tokens : Tokens) (_ntokens : ℕ) : MainResult :=
  mainMgrReport config

/-- The minutes `main_mgr_walk` reports. -/
def walkMinutes (tokens : Tokens) (ntokens : ℕ) : Option ℤ :=
  if ntokens = 3 then tokens[2]?.map fun t => (atoi t).tdiv 60 else some 7

def mainMgrWalk (config : Configuration) (tokens : Tokens) (ntokens : ℕ) : MainResult := do
  let _minutes ← walkMinutes tokens ntokens
  mainMgrReport config

/-- The seconds `main_mgr_down` reports. -/
def downSeconds (tokens : Tokens) (ntokens : ℕ) : Option ℤ :=
  if ntokens = 3 then tokens[2]?.map atoi else some 15

def mainMgrDown (config : Configuration) (tokens : Tokens) (ntokens : ℕ) : MainResult := do
  let _seconds ← downSeconds tokens ntokens
  mainMgrReport config

/-- The fault count after `main_mgr_fault`: the one counter that gives up a touch when there is
no fault left to take, and that reads its argument as the total of both. -/
def CountArg.applyFaults (arg : CountArg) (s : Status) : Status :=
  match arg with
  | .inc => { s with faults := s.faults + 1 }
  | .dec =>
    if 0 < s.faults then { s with faults := s.faults - 1 }
    else if 0 < s.touchs then { s with touchs := s.touchs - 1 }
    else s
  | .set n => { s with faults := n - s.touchs }

def mainMgrFault (config : Configuration) (tokens : Tokens) (ntokens : ℕ) : MainResult := do
  let arg ← countArg tokens ntokens
  let s := arg.applyFaults config.status
  return (0, { config with status := { s with faults := max 0 s.faults, touchs := max 0 s.touchs } })

def mainMgrRefusal (config : Configuration) (tokens : Tokens) (ntokens : ℕ) : MainResult := do
  let arg ← countArg tokens ntokens
  return (0, { config with status.refusals := max 0 (arg.apply config.status.refusals) })

def mainMgrElim (config : Configuration) (tokens : Tokens) (ntokens : ℕ) : MainResult := do
  let arg ← countArg tokens ntokens
  let eliminated := match arg with
    | .inc => 1
    | .dec => 0
    | .set n => if n = 0 then 0 else 1
  return (0, { config with status.eliminated := eliminated })

/-- The argument `<faults>:<refusals>:<eliminated>` of the `data` command. -/
structure DataArg where
  faults : ℤ
  refusals : ℤ
  eliminated : ℤ
  deriving DecidableEq, Repr

/-- The two `strchr` of `main_mgr_data`, each overwriting the separator it found. -/
def parseDataArg (arg : CString) : Option DataArg := do
  let (str, pt) ← cutAt ':' arg
  let (pt, pt2) ← cutAt ':' pt
  return { faults := atoi str, refusals := atoi pt, eliminated := atoi pt2 }

def DataArg.apply (d : DataArg) (s : Status) : Status :=
  { s with
    faults := d.faults - s.touchs
    refusals := d.refusals
    eliminated := if d.eliminated = 0 then 0 else 1 }

def mainMgrData (config : Configuration) (tokens : Tokens) (ntokens : ℕ) : MainResult :=
  if ntokens = 2 then some (-1, config)
  else do
    let d ← parseDataArg (← tokens[2]?)
    return (0, { config with status := d.apply config.status })

/-- The status `main_mgr_reset` leaves: the turn and the values of the round stay. -/
def Status.reset (s : Status) : Status :=
  { s with
    startTime := -1, intTime := 0, stopTime := 0
    faults := 0, touchs := 0, refusals := 0, eliminated := 0, notpresent := 0 }

def mainMgrReset (config : Configuration) (_tokens : Tokens) (_ntokens : ℕ) : MainResult :=
  some (0, { config with status := config.status.reset })

def mainMgrHelp (config : Configuration) (_tokens : Tokens) (_ntokens : ℕ) : MainResult :=
  mainMgrReport config

def mainMgrVersion (config : Configuration) (_tokens : Tokens) (_ntokens : ℕ) : MainResult :=
  mainMgrReport config

def mainMgrExit (config : Configuration) (_tokens : Tokens) (_ntokens : ℕ) : MainResult :=
  mainMgrReport config

def mainMgrServer (config : Configuration) (_tokens : Tokens) (_ntokens : ℕ) : MainResult :=
  mainMgrReport config

def mainMgrPorts (config : Configuration) (_tokens : Tokens) (_ntokens : ℕ) : MainResult :=
  mainMgrReport config

def mainMgrConfig (config : Configuration) (_tokens : Tokens) (_ntokens : ℕ) : MainResult :=
  mainMgrReport config

def mainMgrStatus (config : Configuration) (_tokens : Tokens) (_ntokens : ℕ) : MainResult :=
  mainMgrReport config

/-- The handler of the `turn` command. -/
def mainMgrNumero (config : Configuration) (tokens : Tokens) (ntokens : ℕ) : MainResult := do
  let arg ← countArg tokens ntokens
  return (0, { config with status.numero := max 0 (arg.apply config.status.numero) })

def mainMgrBright (config : Configuration) (tokens : Tokens) (ntokens : ℕ) : MainResult := do
  let arg ← countArg tokens ntokens
  return (0, { config with bright := min 9 (max 0 (arg.apply config.bright)) })

def mainMgrClock (config : Configuration) (_tokens : Tokens) (_ntokens : ℕ) : MainResult :=
  mainMgrReport config

/-- The handler of the `debug` command; it sets the log level, which is not modelled. -/
def mainMgrDebug (config : Configuration) (tokens : Tokens) (ntokens : ℕ) : MainResult := do
  if ntokens = 3 then let _level ← tokens[2]?
  mainMgrReport config

/-- `main_mgr_entries`. -/
def mainMgrEntries : Command → Configuration → Tokens → ℕ → MainResult
  | .start => mainMgrStart
  | .int => mainMgrInt
  | .stop => mainMgrStop
  | .fail => mainMgrFail
  | .ok => mainMgrOk
  | .msg => mainMgrMsg
  | .walk => mainMgrWalk
  | .down => mainMgrDown
  | .fault => mainMgrFault
  | .refusal => mainMgrRefusal
  | .elim => mainMgrElim
  | .data => mainMgrData
  | .reset => mainMgrReset
  | .help => mainMgrHelp
  | .version => mainMgrVersion
  | .exit => mainMgrExit
  | .server => mainMgrServer
  | .ports => mainMgrPorts
  | .config => mainMgrConfig
  | .status => mainMgrStatus
  | .turn => mainMgrNumero
  | .bright => mainMgrBright
  | .clock => mainMgrClock
  | .debug => mainMgrDebug

/-! ## The log -/

section

variable (seconds : ℤ → CString) (config : Configuration) (tokens : Tokens) (ntokens : ℕ)

/-- The line about a command that has been carried out. -/
def commandLine (text : CString) : Option CString := do
  let source ← tokens[0]?
  return source ++ " -> Command: ".toList ++ text

/-- The line a handler writes to the log (`debug`).  `config` is the configuration it has left, and
`seconds` the number `%f` writes for a time in milliseconds divided by 1000. -/
def mainMgrLog : Command → Option CString
  | .start =>
    commandLine tokens
      ("START timestamp:".toList ++ printULong config.status.startTime ++ "\n".toList)
  | .int =>
    if config.status.startTime < 0 then some "INT: chrono is not running".toList
    else if ntokens = 2 then some "INT: Intermediate timestamp is not provided".toList
    else
      commandLine tokens ("INT elapsed time:".toList ++
        seconds (config.status.intTime - config.status.startTime) ++ " seconds".toList)
  | .stop =>
    if config.status.startTime < 0 then some "STOP: chrono is not running".toList
    else if ntokens = 2 then some "STOP: Final timestamp is not provided".toList
    else
      commandLine tokens ("STOP elapsed time:".toList ++
        seconds (config.status.stopTime - config.status.startTime))
  | .fail => commandLine tokens "FAIL".toList
  | .ok => commandLine tokens "OK".toList
  | .msg => do
    let duration ← printPointer libcNull tokens[2]?
    let word ← printPointer libcNull tokens[3]?
    commandLine tokens ("MSG ".toList ++ duration ++ ' ' :: word ++ " (...) ".toList)
  | .walk => do
    let minutes ← walkMinutes tokens ntokens
    commandLine tokens ("WALK ".toList ++ printInt minutes ++ " (min)".toList)
  | .down => do
    let seconds ← downSeconds tokens ntokens
    commandLine tokens ("DOWN ".toList ++ printInt seconds)
  | .fault => commandLine tokens ("FAULT ".toList ++ printInt config.status.faults)
  | .refusal => commandLine tokens ("REFUSAL ".toList ++ printInt config.status.refusals)
  | .elim => commandLine tokens ("ELIM ".toList ++ printInt config.status.eliminated)
  | .data =>
    if ntokens = 2 then commandLine tokens "DATA missing F:R:E values".toList
    else do
      let values ← printPointer libcNull tokens[2]?
      commandLine tokens ("DATA ".toList ++ values)
  | .reset => commandLine tokens "RESET".toList
  | .help => do
    let word ← if ntokens = 3 then printPointer libcNull tokens[2]? else some []
    commandLine tokens ("HELP ".toList ++ word)
  | .version => commandLine tokens "VERSION 1.0.0".toList
  | .exit => commandLine tokens "EXIT".toList
  | .server => do
    let address ← printPointer libcNull tokens[2]?
    commandLine tokens ("SERVER ".toList ++ address)
  | .ports => commandLine tokens "PORTS".toList
  | .config => commandLine tokens "CONFIG".toList
  | .status => commandLine tokens "STATUS".toList
  | .turn => commandLine tokens ("TURN ".toList ++ printInt config.status.numero)
  -- the lines of these two have the number of the dog too
  | .bright => commandLine tokens ("BRIGHT ".toList ++ printInt config.status.numero)
  | .debug => commandLine tokens ("DEBUG ".toList ++ printInt config.status.numero)
  | .clock => commandLine tokens "CLOCK".toList

/-- What a handler of the main thread does: its result, the configuration it leaves, and the line
it writes to the log. -/
def mainMgrCall (c : Command) : Option (ℤ × Configuration × CString) := do
  let (res, left) ← mainMgrEntries c config tokens ntokens
  let line ← mainMgrLog seconds left tokens ntokens c
  return (res, left, line)

end

end SerialChrono
