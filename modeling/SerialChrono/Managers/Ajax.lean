import SerialChrono.Managers.Web

/-!
# What AgilityContest is told (`ajax_mgr.c`, `ajax_put_event`)

A handler of the ajax manager publishes an event: a request to the server whose parameters are
the type of the event, the identity of this program, the values of the status for the types
that need them, and the extra data of the handler.  An event that came from the server is not
sent back.
-/

namespace SerialChrono

open CText

/-- `sc_extra_data_t`. -/
structure ExtraData where
  oper : CString
  value : CString
  start : ℤ
  stop : ℤ
  tiempo : ℤ
  deriving DecidableEq, Repr

/-- A request to publish an event: the arguments of `ajax_put_event`. -/
structure PutEvent where
  config : Configuration
  type : CString
  data : Option ExtraData
  /-- Send the values of the status too. -/
  flag : Bool
  deriving DecidableEq, Repr

/-- What a handler of the ajax manager does. -/
inductive AjaxCall
  /-- It returns at once. -/
  | returns (res : ℤ)
  /-- It returns what `ajax_put_event` returns. -/
  | putEvent (event : PutEvent)
  deriving DecidableEq, Repr

/-- The name and the value of a parameter of a request. -/
abbrev Param := CString × CString

/-- The values of the status in a request. -/
def statusParams (s : Status) : List Param :=
  [("Prueba".toList, printInt s.prueba), ("Jornada".toList, printInt s.jornada),
    ("Manga".toList, printInt s.manga), ("Tanda".toList, printInt s.tanda),
    ("Numero".toList, printInt s.numero), ("Dorsal".toList, printInt s.dorsal),
    ("Perro".toList, printInt s.perro), ("Equipo".toList, printInt s.equipo),
    ("Faltas".toList, printInt s.faults), ("Tocados".toList, printInt s.touchs),
    ("Rehuses".toList, printInt s.refusals), ("Eliminado".toList, printInt s.eliminated),
    ("Nopresentado".toList, printInt s.notpresent)]

/-- The extra data in a request; there is always a value. -/
def extraParams : Option ExtraData → List Param
  | some d =>
    [("Value".toList, d.value), ("Tiempo".toList, printULong d.tiempo), ("Oper".toList, d.oper),
      ("stop".toList, printULong d.stop), ("start".toList, printULong d.start)]
  | none => [("Value".toList, "0".toList)]

/-- The parameters of the request `ajax_put_event` makes at the time `now`. -/
def PutEvent.params (e : PutEvent) (now : ℤ) : List Param :=
  [("Operation".toList, "chronoEvent".toList),
    ("Session".toList, printInt e.config.status.sessionID), ("Source".toList, "chrono".toList),
    ("Name".toList, e.config.clientName), ("SessionName".toList, getSessionName e.config),
    ("Type".toList, e.type), ("TimeStamp".toList, printULong now)] ++
  (if e.flag then statusParams e.config.status else []) ++ extraParams e.data

/-- The handlers of `ajax_mgr.c` that publish an event of a given type with given data. -/
def ajaxMgrPut (type : CString) (data : Option ExtraData) (flag : Bool)
    (config : Configuration) (tokens : Tokens) : AjaxCall :=
  if fromSource scAjaxsrv tokens then .returns 0
  else .putEvent { config, type, data, flag }

/-- The data of an event that carries a value only. -/
def ExtraData.ofValue (value : CString) : ExtraData := ⟨[], value, 0, 0, 0⟩

/-- Timestamps are sent one above: the server takes zero for a missing one. -/
def ajaxMgrStamp (type : CString) (time : ℤ) (config : Configuration) (tokens : Tokens) :
    AjaxCall :=
  ajaxMgrPut type (some (.ofValue (printULong (1 + time)))) false config tokens

def ajaxMgrStart (config : Configuration) (tokens : Tokens) (_ntokens : ℕ) : Option AjaxCall :=
  some (ajaxMgrStamp "crono_start".toList config.status.startTime config tokens)

def ajaxMgrInt (config : Configuration) (tokens : Tokens) (_ntokens : ℕ) : Option AjaxCall :=
  some (ajaxMgrStamp "crono_int".toList config.status.intTime config tokens)

def ajaxMgrStop (config : Configuration) (tokens : Tokens) (_ntokens : ℕ) : Option AjaxCall :=
  some (ajaxMgrStamp "crono_stop".toList config.status.stopTime config tokens)

def ajaxMgrFail (config : Configuration) (tokens : Tokens) (_ntokens : ℕ) : Option AjaxCall :=
  some (ajaxMgrPut "crono_error".toList (some (.ofValue "1".toList)) false config tokens)

def ajaxMgrOk (config : Configuration) (tokens : Tokens) (_ntokens : ℕ) : Option AjaxCall :=
  some (ajaxMgrPut "crono_error".toList (some (.ofValue "0".toList)) false config tokens)

/-- The words of a message are joined by encoded blanks. -/
def ajaxMgrMsg (config : Configuration) (tokens : Tokens) (ntokens : ℕ) : Option AjaxCall :=
  if fromSource scAjaxsrv tokens then some (.returns 0)
  else do
    let duration ← tokens[2]?
    let first ← tokens[3]?
    let rest := ((tokens.take ntokens).drop 4).flatMap fun token => "%20".toList ++ token
    return ajaxMgrPut "command".toList
      (some ⟨"8".toList, duration ++ ':' :: first ++ rest, 0, 0, 0⟩) false config tokens

def ajaxMgrWalk (config : Configuration) (tokens : Tokens) (ntokens : ℕ) : Option AjaxCall :=
  if fromSource scAjaxsrv tokens then some (.returns 0)
  else do
    let start ← if ntokens = 3 then tokens[2]?.map atol else some 420
    return ajaxMgrPut "crono_rec".toList (some ⟨[], [], start, 0, 0⟩) false config tokens

def ajaxMgrDown (config : Configuration) (tokens : Tokens) (ntokens : ℕ) : Option AjaxCall :=
  if fromSource scAjaxsrv tokens then some (.returns 0)
  else do
    let value ← if ntokens = 3 then tokens[2]? else some "15".toList
    return ajaxMgrPut "salida".toList (some (.ofValue value)) true config tokens

/-- The handler of `turn` takes its argument for the number of the competitor too. -/
def ajaxMgrTurn (config : Configuration) (tokens : Tokens) (_ntokens : ℕ) : Option AjaxCall :=
  if fromSource scAjaxsrv tokens then some (.returns 0)
  else do
    let dorsal ← tokens[2]?.map atoi
    return ajaxMgrPut "llamada".toList none true { config with status.dorsal := dorsal } tokens

def ajaxMgrData (config : Configuration) (tokens : Tokens) (_ntokens : ℕ) : Option AjaxCall :=
  some (ajaxMgrPut "crono_dat".toList none true config tokens)

def ajaxMgrReset (config : Configuration) (tokens : Tokens) (_ntokens : ℕ) : Option AjaxCall :=
  some (ajaxMgrPut "crono_reset".toList none false config tokens)

def ajaxMgrExit (_config : Configuration) (_tokens : Tokens) (_ntokens : ℕ) : Option AjaxCall :=
  some (.returns (-1))

/-- The table `entries` of the ajax manager. -/
def ajaxMgrEntries : Command → Option (Configuration → Tokens → ℕ → Option AjaxCall)
  | .start => some ajaxMgrStart
  | .int => some ajaxMgrInt
  | .stop => some ajaxMgrStop
  | .fail => some ajaxMgrFail
  | .ok => some ajaxMgrOk
  | .msg => some ajaxMgrMsg
  | .walk => some ajaxMgrWalk
  | .down => some ajaxMgrDown
  | .fault | .refusal | .elim | .data => some ajaxMgrData
  | .reset => some ajaxMgrReset
  | .exit => some ajaxMgrExit
  | .turn => some ajaxMgrTurn
  | .help | .version | .server | .ports | .config | .status | .bright | .clock | .debug => none

end SerialChrono
