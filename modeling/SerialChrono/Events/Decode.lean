import SerialChrono.Config
import SerialChrono.Events.Json

/-!
# AgilityContest events (`ajax_json.c`)

`processEventData` reads the data of one event and answers with a command for the main thread,
if the event calls for one.  The events that describe the round or the competitor change the
status at once.  `none` is the use of a property that is not there.  A property that is only
printed may be NULL: the functions take what `%s` makes of it, `libcNull` in the program as it is
built.

`parseEvents` reads the answer to a `getEvents` request and goes over its rows.
-/

namespace SerialChrono

open CText

/-! ## Event types -/

/-- The event types `process_eventData` tells apart. -/
inductive EventType
  | null | init | login | open | close | salida | start | stop | cronoStart | cronoInt
  | cronoStop | cronoRec | cronoDat | cronoRestart | cronoReset | cronoError | cronoReady
  | llamada | datos | aceptar | cancelar | info | user | command | camera | reconfig
  deriving DecidableEq, Repr

/-- The text of an event type. -/
def EventType.text : EventType → CString
  | .null => "null".toList
  | .init => "init".toList
  | .login => "login".toList
  | .open => "open".toList
  | .close => "close".toList
  | .salida => "salida".toList
  | .start => "start".toList
  | .stop => "stop".toList
  | .cronoStart => "crono_start".toList
  | .cronoInt => "crono_int".toList
  | .cronoStop => "crono_stop".toList
  | .cronoRec => "crono_rec".toList
  | .cronoDat => "crono_dat".toList
  | .cronoRestart => "crono_restart".toList
  | .cronoReset => "crono_reset".toList
  | .cronoError => "crono_error".toList
  | .cronoReady => "crono_ready".toList
  | .llamada => "llamada".toList
  | .datos => "datos".toList
  | .aceptar => "aceptar".toList
  | .cancelar => "cancelar".toList
  | .info => "info".toList
  | .user => "user".toList
  | .command => "command".toList
  | .camera => "camera".toList
  | .reconfig => "reconfig".toList

/-- The types in the order they are tested. -/
def eventTypes : List EventType :=
  [.null, .init, .login, .open, .close, .salida, .start, .stop, .cronoStart, .cronoInt,
    .cronoStop, .cronoRec, .cronoDat, .cronoRestart, .cronoReset, .cronoError, .cronoReady,
    .llamada, .datos, .aceptar, .cancelar, .info, .user, .command, .camera, .reconfig]

/-- The chain of `strcmp` on the type of an event. -/
def findEventType (typestr : CString) : Option EventType :=
  eventTypes.find? fun t => t.text == typestr

/-! ## What each type does -/

/-- The status an event leaves, and the text of `result`, empty if there is no command. -/
abbrev EventResult := Option (Status × CString)

/-- The competitor's data set to zero by `init` and `open`. -/
def Status.clearDog (s : Status) : Status :=
  { s with
    numero := 0, dorsal := 0, perro := 0, equipo := 0
    faults := 0, touchs := 0, refusals := 0, eliminated := 0, notpresent := 0 }

def eventInit (s : Status) (rdata : Json) : EventResult := do
  let pru ← rdata.getPropertyValue "Pru".toList
  let jor ← rdata.getPropertyValue "Jor".toList
  return ({ s.clearDog with prueba := atoi pru, jornada := atoi jor, manga := 0, tanda := 0 }, [])

def eventOpen (s : Status) (rdata : Json) : EventResult := do
  let mng ← rdata.getPropertyValue "Mng".toList
  let tnd ← rdata.getPropertyValue "Tnd".toList
  return ({ s.clearDog with manga := atoi mng, tanda := atoi tnd }, [])

/-- The types that pass their value on in a command. -/
def eventValue (null : Option CString) (cmd : CString) (s : Status) (rdata : Json) :
    EventResult := do
  let valuestr ← printPointer null (rdata.getPropertyValue "Value".toList)
  return (s, cmd ++ ' ' :: valuestr ++ "\n".toList)

/-- `crono_int`, which gives its value to `atoll` before it prints it. -/
def eventInt (s : Status) (rdata : Json) : EventResult := do
  let valuestr ← rdata.getPropertyValue "Value".toList
  return (s, "int ".toList ++ valuestr ++ "\n".toList)

def eventWalk (s : Status) (rdata : Json) : EventResult :=
  let seconds := match rdata.getPropertyValue "start".toList with
    | some startstr => atol startstr
    | none => 0
  some (s, "walk ".toList ++ printULong seconds ++ "\n".toList)

/-- `(strcmp(text,"-1")==0)?old:atoi(text)`: the server sends -1 for a value it does not
change. -/
def keepOr (old : ℤ) (text : CString) : ℤ := if text = "-1".toList then old else atoi text

/-- `datos` and `crono_dat`.  `NPr` is read but not used. -/
def eventDog (s : Status) (rdata : Json) : EventResult := do
  let flt ← rdata.getPropertyValue "Flt".toList
  let toc ← rdata.getPropertyValue "Toc".toList
  let reh ← rdata.getPropertyValue "Reh".toList
  let eli ← rdata.getPropertyValue "Eli".toList
  let _npr ← rdata.getPropertyValue "NPr".toList
  let f := keepOr s.faults flt
  let t := keepOr s.touchs toc
  let r := keepOr s.refusals reh
  let e := keepOr s.eliminated eli
  return (s, "data ".toList ++ printInt (f + t) ++ ':' :: printInt r ++ ':' :: printInt e ++
    "\n".toList)

/-- `llamada`.  Whether `NPr` is read depends on `Flt`. -/
def eventCall (null : Option CString) (s : Status) (rdata : Json) : EventResult := do
  let drs ← rdata.getPropertyValue "Drs".toList
  let dog ← rdata.getPropertyValue "Dog".toList
  let eqp ← rdata.getPropertyValue "Eqp".toList
  let s := { s with dorsal := atoi drs, perro := atoi dog, equipo := atoi eqp }
  let flt ← rdata.getPropertyValue "Flt".toList
  let toc ← rdata.getPropertyValue "Toc".toList
  let reh ← rdata.getPropertyValue "Reh".toList
  let eli ← rdata.getPropertyValue "Eli".toList
  let notpresent ← if flt = "-1".toList then some s.notpresent
    else (rdata.getPropertyValue "NPr".toList).map atoi
  let s :=
    { s with
      faults := keepOr s.faults flt, touchs := keepOr s.touchs toc
      refusals := keepOr s.refusals reh, eliminated := keepOr s.eliminated eli
      notpresent := notpresent }
  let num ← printPointer null (rdata.getPropertyValue "Numero".toList)
  return (s, "turn ".toList ++ num ++ "\n".toList)

/-- The copy of the value of a message, cut at its first colon, and what is behind it. -/
def splitMessage (value : CString) : CString × Option CString :=
  match cutAt ':' value with
  | some (secs, msg) => (secs, some msg)
  | none => (value, none)

lemma splitMessage_append {secs : CString} (h : ':' ∉ secs) (msg : CString) :
    splitMessage (secs ++ ':' :: msg) = (secs, some msg) := by
  unfold splitMessage
  rw [cutAt_append h]

/-- `command`: only operation 8, a message, is carried out. -/
def eventCommand (null : Option CString) (s : Status) (rdata : Json) : EventResult := do
  let oper ← rdata.getPropertyValue "Oper".toList
  if oper = "8".toList then
    let value ← rdata.getPropertyValue "Value".toList
    let (secs, msg) := splitMessage value
    let msg ← printPointer null msg
    return (s, "msg ".toList ++ secs ++ ' ' :: msg ++ "\n".toList)
  else return (s, [])

/-- What an event of a type does. -/
def eventHandler (null : Option CString) : EventType → Status → Json → EventResult
  | .init => eventInit
  | .open => eventOpen
  | .salida => fun s _ => some (s, "down 15\n".toList)
  | .start | .cronoStart => eventValue null "start".toList
  | .cronoInt => eventInt
  | .stop | .cronoStop => eventValue null "stop".toList
  | .cronoRec => eventWalk
  | .cronoDat | .datos => eventDog
  | .cronoReset => fun s _ => some (s, "reset\n".toList)
  | .cronoError => fun s _ => some (s, "fail\n".toList)
  | .cronoReady => fun s _ => some (s, "ok\n".toList)
  | .llamada => eventCall null
  | .command => eventCommand null
  | .null | .login | .close | .cronoRestart | .aceptar | .cancelar | .info | .user | .camera
  | .reconfig => fun s _ => some (s, [])

/-! ## `process_eventData` -/

/-- What `process_eventData` does with the tree of the data of an event.  The events this
program has sent itself are ignored. -/
def processEventTree (null : Option CString) (config : Configuration) (rdata : Json) :
    Option (Configuration × Option CString) :=
  if rdata.getPropertyValue "SessionName".toList = some (getSessionName config) then
    some (config, none)
  else do
    let typestr ← rdata.getPropertyValue "Type".toList
    let (status, result) ← match findEventType typestr with
      | some type => eventHandler null type config.status rdata
      | none => some (config.status, [])
    -- `result` has room for 255 characters
    let result := result.take 255
    return ({ config with status }, if result = [] then none else some result)

/-- The time an event carries, if any, else the old one. -/
def eventTimestamp (rdata : Json) (timestamp : ℤ) : ℤ :=
  match rdata.getPropertyValue "TimeStamp".toList with
  | some tsstr => atol tsstr
  | none => timestamp

/-- `process_eventData`: the configuration, the command and the timestamp it leaves. -/
def processEventData (null : Option CString) (jsonCreate : JsonCreate) (config : Configuration)
    (datastr : CString) (timestamp : ℤ) : Option (Configuration × Option CString × ℤ) := do
  let rdata ← jsonCreate datastr 128
  let (config, result) ← processEventTree null config rdata
  return (config, result, eventTimestamp rdata timestamp)

lemma processEventData_eq {null : Option CString} {jsonCreate : JsonCreate} {datastr : CString}
    {rdata : Json} (h : jsonCreate datastr 128 = some rdata) (config : Configuration)
    (timestamp : ℤ) :
    processEventData null jsonCreate config datastr timestamp =
      (processEventTree null config rdata).map fun r =>
        (r.1, r.2, eventTimestamp rdata timestamp) := by
  rw [processEventData, h, Option.map_eq_bind]
  rfl

/-! ## `parse_events` -/

/-- What `parse_events` reads and writes while it goes over the rows: `cmds` are the entries of
`result` before `evt_count`. -/
structure EventsState where
  config : Configuration
  evtid : ℤ
  timestamp : ℤ
  cmds : List CString

/-- One row.  The array of commands has `capacity` entries. -/
def eventRow (null : Option CString) (jsonCreate : JsonCreate) (capacity : ℤ) (st : EventsState)
    (event : Json) : Option EventsState :=
  match event with
  | .obj _ => do
    let eventstr ← event.getPropertyValue "ID".toList
    let st := { st with evtid := atoi eventstr }
    match event.getPropertyValue "Data".toList with
    | none => return st
    | some data =>
      let (config, result, timestamp) ←
        processEventData null jsonCreate st.config data st.timestamp
      if st.cmds.length < capacity then
        return { st with config, timestamp, cmds := st.cmds ++ result.toList }
      else none
  | _ => some st

/-- The loop over the rows. -/
def eventRows (null : Option CString) (jsonCreate : JsonCreate) (capacity : ℤ) (st : EventsState) :
    List Json → Option EventsState
  | [] => some st
  | event :: rows => do
    let st ← eventRow null jsonCreate capacity st event
    eventRows null jsonCreate capacity st rows

/-- What `parse_events` returns: NULL, or an array of `capacity` entries that begins with
`cmds`. -/
inductive EventsReply
  | error
  | commands (cmds : List CString) (capacity : ℤ)

/-- `parse_events` on the tree of the response. -/
def parseEventsTree (null : Option CString) (jsonCreate : JsonCreate) (config : Configuration)
    (root : Json) (evtid timestamp : ℤ) : Option (EventsState × EventsReply) :=
  let st : EventsState := ⟨config, evtid, timestamp, []⟩
  match root.getPropertyValue "total".toList with
  | none => some (st, .error)
  | some total =>
    match root.getProperty "rows".toList with
    | some (.arr rows) =>
      let capacity := 1 + atoi total
      -- a negative count is a huge unsigned one, for which there is no memory
      if capacity < 0 then some (st, .error)
      else do
        let st ← eventRows null jsonCreate capacity st rows
        return (st, .commands st.cmds capacity)
    | _ => some (st, .error)

/-- `parse_events`: every `:`, `[` and `{` of the text makes room for one node. -/
def parseEvents (null : Option CString) (jsonCreate : JsonCreate) (config : Configuration)
    (jsonStr : CString) (evtid timestamp : ℤ) : Option (EventsState × EventsReply) :=
  match jsonCreate jsonStr (jsonStr.countP fun c => c == ':' || c == '[' || c == '{') with
  | none => some (⟨config, evtid, timestamp, []⟩, .error)
  | some root => parseEventsTree null jsonCreate config root evtid timestamp

end SerialChrono
