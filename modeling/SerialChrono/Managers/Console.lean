import SerialChrono.Managers.Web

/-!
# What the console shows (`console_mgr.c`, `sc_help` in `parser.c`)

A handler of the console manager writes what happened on the terminal, whatever the source of
the command.  Two of the texts are left open: `seconds` is the number `%f` writes for a time in
milliseconds divided by 1000, and `listing` is what `ports`, `config`, `status` and `debug` list,
data of the program that none of the other commands touches.
-/

namespace SerialChrono

open CText

/-! ## `command_list`, the texts -/

def Command.desc : Command → CString
  | .start => "Start of course run".toList
  | .int => "Intermediate time mark".toList
  | .stop => "End of course run".toList
  | .fail => "Sensor faillure detected".toList
  | .ok => "Sensor recovery. Chrono ready".toList
  | .msg => "Show message on chrono display".toList
  | .walk => "Course walk (0:stop)".toList
  | .down => "Start 15 seconds countdown".toList
  | .fault => "Mark fault (+/-/#)".toList
  | .refusal => "Mark refusal (+/-/#)".toList
  | .elim => "Mark elimination [+-]".toList
  | .data => "Set course fault:ref:disq info".toList
  | .reset => "Reset chronometer and countdown".toList
  | .help => "show command list".toList
  | .version => "Show software version".toList
  | .exit => "End program (from console)".toList
  | .server => "Set server IP address".toList
  | .ports => "Show available serial ports".toList
  | .config => "List configuration parameters".toList
  | .status => "Show Fault:Refusal:Elim state".toList
  | .turn => "Set current dog order number [+-#]".toList
  | .bright => "Set display bright (0..9) [+-#]".toList
  | .clock => "Enter clock mode".toList
  | .debug => "Get/Set debug level".toList

def Command.args : Command → CString
  | .start => "[miliseconds] \x7b0\x7d".toList
  | .int | .stop => "<miliseconds>".toList
  | .msg => "<seconds> <message> [seconds]".toList
  | .walk => "<seconds> \x7b420\x7d".toList
  | .fault | .refusal => "< + | - | num \x7b+\x7d>".toList
  | .elim => "[ + | - ] \x7b+\x7d".toList
  | .data => "<faults>:<refulsals>:<disq>".toList
  | .help => "[cmd]".toList
  | .server => "<x.y.z.t> \x7b0.0.0.0\x7d".toList
  | .turn => "[ + | - | num ] \x7b+\x7d".toList
  | .bright => "[ + | - | num ] \x7b+\x7d 0:off".toList
  | .clock => "[ hh:mm:ss ] \x7bcurrent time\x7d".toList
  | .debug => "[ new_level ]".toList
  | .fail | .ok | .down | .reset | .version | .exit | .ports | .config | .status => []

/-! ## The handlers -/

/-- What a handler of the console manager does: its result, and the text it writes. -/
structure ConsoleCall where
  res : ℤ
  written : CString
  deriving DecidableEq, Repr

def ConsoleCall.write (text : CString) : ConsoleCall := ⟨0, text⟩

/-- `sc_help`: the word is compared as it was typed. -/
def scHelp (tokens : Tokens) (ntokens : ℕ) : Option ConsoleCall :=
  if 2 < ntokens then do
    let cmd ← tokens[2]?
    match findCommand cmd with
    | some c =>
      return .write ("Descr.:\t".toList ++ c.desc ++ " \nUsage:\t".toList ++ c.cmd ++
        ' ' :: c.args ++ "\n".toList)
    | none => return ⟨1, "Command ".toList ++ cmd ++ " not found".toList⟩
  else
    some (.write ("List of available commands:\n".toList ++ commandList.flatMap fun c =>
      '\t' :: c.cmd ++ ": ".toList ++ c.desc ++ "\n".toList))

variable (seconds : ℤ → CString) (listing : Command → Configuration → CString)

def consoleMgrStart (_config : Configuration) (tokens : Tokens) (ntokens : ℕ) :
    Option ConsoleCall := do
  let time ← if ntokens = 2 then some [] else tokens[2]?
  return .write ("Course run START ".toList ++ time ++ "\n".toList)

def consoleMgrInt (config : Configuration) (tokens : Tokens) (_ntokens : ℕ) :
    Option ConsoleCall := do
  let time ← tokens[2]?
  return .write ("Course run INT ".toList ++ time ++ "\nIntermediate time: ".toList ++
    seconds (config.status.intTime - config.status.startTime) ++ " seconds\n".toList)

def consoleMgrStop (config : Configuration) (tokens : Tokens) (_ntokens : ℕ) :
    Option ConsoleCall := do
  let time ← tokens[2]?
  return .write ("Course run STOP ".toList ++ time ++ "\nCourse time: ".toList ++
    seconds (config.status.stopTime - config.status.startTime) ++ " seconds\n".toList)

def consoleMgrMsg (_config : Configuration) (tokens : Tokens) (ntokens : ℕ) :
    Option ConsoleCall :=
  some (.write ("Received message:\n".toList ++
    (((tokens.take ntokens).drop 3).flatMap fun token => ' ' :: token) ++ "\n".toList))

def consoleMgrWalk (_config : Configuration) (tokens : Tokens) (ntokens : ℕ) :
    Option ConsoleCall := do
  let minutes ← walkMinutes tokens ntokens
  return .write ("Rquested ".toList ++ printInt minutes ++ " minutes course walk\n".toList)

def consoleMgrDown (_config : Configuration) (tokens : Tokens) (ntokens : ℕ) :
    Option ConsoleCall := do
  let seconds ← downSeconds tokens ntokens
  return .write ("Starting ".toList ++ printInt seconds ++
    " seconds countdown for start running\n".toList)

def consoleMgrHelp (_config : Configuration) (tokens : Tokens) (ntokens : ℕ) :
    Option ConsoleCall :=
  scHelp tokens ntokens

/-- A handler that reads no token: it writes a text, in which the configuration may show. -/
def consoleMgrShow (text : Configuration → CString) (config : Configuration) (_tokens : Tokens)
    (_ntokens : ℕ) : Option ConsoleCall :=
  some (.write (text config))

def consoleMgrFail : Configuration → Tokens → ℕ → Option ConsoleCall :=
  consoleMgrShow fun _ => "Sensor(s) failure noticed\n".toList

def consoleMgrOk : Configuration → Tokens → ℕ → Option ConsoleCall :=
  consoleMgrShow fun _ => "Sensor(s) OK . Chronometer is ready\n".toList

def consoleMgrFault : Configuration → Tokens → ℕ → Option ConsoleCall :=
  consoleMgrShow fun config =>
    "Fault/Touch count is: ".toList ++ printInt (config.status.faults + config.status.touchs) ++
      "\n".toList

def consoleMgrRefusal : Configuration → Tokens → ℕ → Option ConsoleCall :=
  consoleMgrShow fun config =>
    "Refusal count is: ".toList ++ printInt config.status.refusals ++ "\n".toList

def consoleMgrElim : Configuration → Tokens → ℕ → Option ConsoleCall :=
  consoleMgrShow fun config =>
    "Eliminated status is: ".toList ++ printInt config.status.eliminated

def consoleMgrData : Configuration → Tokens → ℕ → Option ConsoleCall :=
  consoleMgrShow fun config =>
    "Received DATA. F:".toList ++ printInt (config.status.faults + config.status.touchs) ++
      " R:".toList ++ printInt config.status.refusals ++
      " E:".toList ++ printInt config.status.eliminated ++ "\n".toList

def consoleMgrReset : Configuration → Tokens → ℕ → Option ConsoleCall :=
  consoleMgrShow fun _ => "Received RESET\n".toList

def consoleMgrVersion : Configuration → Tokens → ℕ → Option ConsoleCall :=
  consoleMgrShow fun _ => "Console_manager version:1.0.0\n".toList

def consoleMgrExit : Configuration → Tokens → ℕ → Option ConsoleCall :=
  consoleMgrShow fun _ => "Exit requested".toList

def consoleMgrServer : Configuration → Tokens → ℕ → Option ConsoleCall :=
  consoleMgrShow fun config =>
    "Tryng to connect to AgilityContest server at: ".toList ++ config.ajaxServer ++ "\n".toList

/-- The handler of the `turn` command. -/
def consoleMgrNumero : Configuration → Tokens → ℕ → Option ConsoleCall :=
  consoleMgrShow fun config =>
    "Entering dog number: ".toList ++ printInt config.status.numero ++ "\n".toList

def consoleMgrBright : Configuration → Tokens → ℕ → Option ConsoleCall :=
  consoleMgrShow fun config =>
    "Setting display bright: ".toList ++ printInt config.bright ++ "\n".toList

def consoleMgrClock : Configuration → Tokens → ℕ → Option ConsoleCall :=
  consoleMgrShow fun _ => "Entering clock mode".toList

def consoleMgrPorts : Configuration → Tokens → ℕ → Option ConsoleCall :=
  consoleMgrShow (listing .ports)

def consoleMgrConfig : Configuration → Tokens → ℕ → Option ConsoleCall :=
  consoleMgrShow (listing .config)

def consoleMgrStatus : Configuration → Tokens → ℕ → Option ConsoleCall :=
  consoleMgrShow (listing .status)

def consoleMgrDebug : Configuration → Tokens → ℕ → Option ConsoleCall :=
  consoleMgrShow (listing .debug)

/-- The table `entries` of the console manager. -/
def consoleMgrEntries : Command → Configuration → Tokens → ℕ → Option ConsoleCall
  | .start => consoleMgrStart
  | .int => consoleMgrInt seconds
  | .stop => consoleMgrStop seconds
  | .fail => consoleMgrFail
  | .ok => consoleMgrOk
  | .msg => consoleMgrMsg
  | .walk => consoleMgrWalk
  | .down => consoleMgrDown
  | .fault => consoleMgrFault
  | .refusal => consoleMgrRefusal
  | .elim => consoleMgrElim
  | .data => consoleMgrData
  | .reset => consoleMgrReset
  | .help => consoleMgrHelp
  | .version => consoleMgrVersion
  | .exit => consoleMgrExit
  | .server => consoleMgrServer
  | .ports => consoleMgrPorts listing
  | .config => consoleMgrConfig listing
  | .status => consoleMgrStatus listing
  | .turn => consoleMgrNumero
  | .bright => consoleMgrBright
  | .clock => consoleMgrClock
  | .debug => consoleMgrDebug listing

end SerialChrono
