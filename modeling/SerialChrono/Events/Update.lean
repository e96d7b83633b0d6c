import SerialChrono.MainMgr
import SerialChrono.Events.Decode

/-!
# What an event asks for

`process_eventData` mixes three things: finding the properties of the event, changing the status
at once, and printing a command.  Here they are apart.  `eventUpdate` reads the properties into
an `Update`, which does not depend on the status; `Update.apply` is the change it makes to the
status, and `Update.text` the command it gives.  `processEventTree_eq` says that this is what
`process_eventData` does.
-/

namespace SerialChrono

open CText

/-! ## Counters -/

/-- The counters an event sends, none for a value it does not change. -/
structure Sent where
  faults : Option ℤ
  touchs : Option ℤ
  refusals : Option ℤ
  eliminated : Option ℤ
  deriving DecidableEq, Repr

/-- The value in a text, none for `-1`. -/
def sentValue (text : CString) : Option ℤ := if text = "-1".toList then none else some (atoi text)

lemma keepOr_eq (old : ℤ) (text : CString) : keepOr old text = (sentValue text).getD old := by
  unfold keepOr sentValue
  split <;> rfl

def sentCounters (rdata : Json) : Option Sent := do
  let flt ← rdata.getPropertyValue "Flt".toList
  let toc ← rdata.getPropertyValue "Toc".toList
  let reh ← rdata.getPropertyValue "Reh".toList
  let eli ← rdata.getPropertyValue "Eli".toList
  return ⟨sentValue flt, sentValue toc, sentValue reh, sentValue eli⟩

/-- The argument of the `data` command for these counters. -/
def Sent.dataArg (v : Sent) (s : Status) : DataArg where
  faults := v.faults.getD s.faults + v.touchs.getD s.touchs
  refusals := v.refusals.getD s.refusals
  eliminated := v.eliminated.getD s.eliminated

/-- What `llamada` sends. -/
structure Call where
  dorsal : ℤ
  perro : ℤ
  equipo : ℤ
  sent : Sent
  notpresent : Option ℤ
  num : CString
  deriving DecidableEq, Repr

def callValues (null : Option CString) (rdata : Json) : Option Call := do
  let drs ← rdata.getPropertyValue "Drs".toList
  let dog ← rdata.getPropertyValue "Dog".toList
  let eqp ← rdata.getPropertyValue "Eqp".toList
  let sent ← sentCounters rdata
  let notpresent ← if sent.faults.isNone then some none
    else (rdata.getPropertyValue "NPr".toList).map fun npr => some (atoi npr)
  let num ← printPointer null (rdata.getPropertyValue "Numero".toList)
  return ⟨atoi drs, atoi dog, atoi eqp, sent, notpresent, num⟩

def Call.apply (c : Call) (s : Status) : Status :=
  { s with
    dorsal := c.dorsal, perro := c.perro, equipo := c.equipo
    faults := c.sent.faults.getD s.faults, touchs := c.sent.touchs.getD s.touchs
    refusals := c.sent.refusals.getD s.refusals
    eliminated := c.sent.eliminated.getD s.eliminated
    notpresent := c.notpresent.getD s.notpresent }

/-! ## Updates -/

/-- What an event asks for. -/
inductive Update
  | nothing
  /-- A command whose arguments, if any, come from the event alone. -/
  | order (c : Command) (args : Option CString)
  | init (prueba jornada : ℤ)
  | open (manga tanda : ℤ)
  /-- `datos` and `crono_dat`. -/
  | dog (v : Sent)
  /-- `llamada`. -/
  | call (c : Call)
  deriving DecidableEq, Repr

/-- The change an event makes to the status when it is parsed. -/
def Update.apply : Update → Status → Status
  | .nothing, s | .order _ _, s | .dog _, s => s
  | .init prueba jornada, s =>
    { s.clearDog with prueba := prueba, jornada := jornada, manga := 0, tanda := 0 }
  | .open manga tanda, s => { s.clearDog with manga := manga, tanda := tanda }
  | .call c, s => c.apply s

@[simp] lemma Update.apply_sessionID (u : Update) (s : Status) :
    (u.apply s).sessionID = s.sessionID := by
  cases u <;> rfl

/-- The command an event gives. -/
def Update.command : Update → Option Command
  | .nothing | .init _ _ | .open _ _ => none
  | .order c _ => some c
  | .dog _ => some .data
  | .call _ => some .turn

/-- What follows the command word. -/
def Update.rest : Update → Status → CString
  | .nothing, _ | .init _ _, _ | .open _ _, _ => []
  | .order _ none, _ => "\n".toList
  | .order _ (some args), _ => ' ' :: args ++ "\n".toList
  | .dog v, s =>
    let d := v.dataArg s
    ' ' :: printInt d.faults ++ ':' :: printInt d.refusals ++ ':' :: printInt d.eliminated ++
      "\n".toList
  | .call c, _ => ' ' :: c.num ++ "\n".toList

/-- The text of the command, empty if there is none. -/
def Update.text (u : Update) (s : Status) : CString :=
  match u.command with
  | none => []
  | some c => c.cmd ++ u.rest s

/-- The types that pass their value on. -/
def valueUpdate (null : Option CString) (c : Command) (rdata : Json) : Option Update :=
  (printPointer null (rdata.getPropertyValue "Value".toList)).map fun valuestr =>
    .order c (some valuestr)

/-- The event of a type with these properties. -/
def eventUpdate (null : Option CString) (type : EventType) (rdata : Json) : Option Update :=
  match type with
  | .init => do
    let pru ← rdata.getPropertyValue "Pru".toList
    let jor ← rdata.getPropertyValue "Jor".toList
    return .init (atoi pru) (atoi jor)
  | .open => do
    let mng ← rdata.getPropertyValue "Mng".toList
    let tnd ← rdata.getPropertyValue "Tnd".toList
    return .open (atoi mng) (atoi tnd)
  | .salida => some (.order .down (some "15".toList))
  | .start | .cronoStart => valueUpdate null .start rdata
  | .cronoInt => valueUpdate none .int rdata
  | .stop | .cronoStop => valueUpdate null .stop rdata
  | .cronoRec =>
    let seconds := ((rdata.getPropertyValue "start".toList).map atol).getD 0
    some (.order .walk (some (printULong seconds)))
  | .cronoDat | .datos => do
    let v ← sentCounters rdata
    let _npr ← rdata.getPropertyValue "NPr".toList
    return .dog v
  | .cronoReset => some (.order .reset none)
  | .cronoError => some (.order .fail none)
  | .cronoReady => some (.order .ok none)
  | .llamada => (callValues null rdata).map .call
  | .command => do
    let oper ← rdata.getPropertyValue "Oper".toList
    if oper = "8".toList then
      let value ← rdata.getPropertyValue "Value".toList
      let (secs, msg) := splitMessage value
      let msg ← printPointer null msg
      return .order .msg (some (secs ++ ' ' :: msg))
    else return .nothing
  | .null | .login | .close | .cronoRestart | .aceptar | .cancelar | .info | .user | .camera
  | .reconfig => some .nothing

/-- The event in a tree, for the instance with this session name. -/
def treeUpdate (null : Option CString) (name : CString) (rdata : Json) : Option Update :=
  if rdata.getPropertyValue "SessionName".toList = some name then some .nothing
  else
    (rdata.getPropertyValue "Type".toList).bind fun typestr =>
      match findEventType typestr with
      | some type => eventUpdate null type rdata
      | none => some .nothing

/-! ## The events are their updates -/

lemma eventValue_eq (null : Option CString) (c : Command) (s : Status) (rdata : Json) :
    eventValue null c.cmd s rdata =
      (valueUpdate null c rdata).map fun u => (u.apply s, u.text s) := by
  unfold eventValue valueUpdate
  cases printPointer null (rdata.getPropertyValue "Value".toList) with
  | none => rfl
  | some valuestr => simp [Update.apply, Update.text, Update.command, Update.rest]

lemma eventInt_eq (s : Status) (rdata : Json) :
    eventInt s rdata = (valueUpdate none .int rdata).map fun u => (u.apply s, u.text s) := by
  rw [← eventValue_eq]
  unfold eventInt eventValue
  cases rdata.getPropertyValue "Value".toList <;> rfl

lemma eventDog_eq (null : Option CString) (s : Status) (rdata : Json) :
    eventDog s rdata = (eventUpdate null .datos rdata).map fun u => (u.apply s, u.text s) := by
  have hword : "data ".toList = Command.data.cmd ++ [' '] := by decide
  unfold eventDog eventUpdate sentCounters
  rw [hword]
  cases rdata.getPropertyValue "Flt".toList <;> try rfl
  cases rdata.getPropertyValue "Toc".toList <;> try rfl
  cases rdata.getPropertyValue "Reh".toList <;> try rfl
  cases rdata.getPropertyValue "Eli".toList <;> try rfl
  cases rdata.getPropertyValue "NPr".toList <;> try rfl
  simp [keepOr_eq, Update.apply, Update.text, Update.command, Update.rest, Sent.dataArg]

lemma eventCall_eq (null : Option CString) (s : Status) (rdata : Json) :
    eventCall null s rdata = (callValues null rdata).map fun c =>
      ((Update.call c).apply s, (Update.call c).text s) := by
  have hword : "turn ".toList = Command.turn.cmd ++ [' '] := by decide
  unfold eventCall callValues sentCounters
  rw [hword]
  cases rdata.getPropertyValue "Drs".toList <;> try rfl
  cases rdata.getPropertyValue "Dog".toList <;> try rfl
  cases rdata.getPropertyValue "Eqp".toList <;> try rfl
  cases rdata.getPropertyValue "Flt".toList <;> try rfl
  next flt =>
  cases rdata.getPropertyValue "Toc".toList <;> try rfl
  cases rdata.getPropertyValue "Reh".toList <;> try rfl
  cases rdata.getPropertyValue "Eli".toList <;> try rfl
  by_cases hflt : flt = "-1".toList
  · cases printPointer null (rdata.getPropertyValue "Numero".toList) <;>
      simp [hflt, keepOr_eq, sentValue, Update.apply, Update.text, Update.command, Update.rest,
        Call.apply]
  · have hsent : sentValue flt = some (atoi flt) := if_neg hflt
    simp only [hflt, hsent, keepOr_eq, if_false, Option.bind_eq_bind, Option.bind_some,
      Option.pure_def, Option.isNone_some, Bool.false_eq_true]
    cases rdata.getPropertyValue "NPr".toList <;> try rfl
    cases printPointer null (rdata.getPropertyValue "Numero".toList) <;> rfl

/-- An event does what its update says. -/
lemma eventHandler_eq (null : Option CString) (type : EventType) (s : Status) (rdata : Json) :
    eventHandler null type s rdata =
      (eventUpdate null type rdata).map fun u => (u.apply s, u.text s) := by
  cases type with
  | llamada => simp only [eventHandler, eventUpdate, eventCall_eq, Option.map_map]; rfl
  | datos | cronoDat => exact eventDog_eq null s rdata
  | start | cronoStart => exact eventValue_eq null .start s rdata
  | cronoInt => exact eventInt_eq s rdata
  | stop | cronoStop => exact eventValue_eq null .stop s rdata
  | init =>
    simp only [eventHandler, eventInit, eventUpdate]
    cases rdata.getPropertyValue "Pru".toList <;> try rfl
    cases rdata.getPropertyValue "Jor".toList <;> rfl
  | «open» =>
    simp only [eventHandler, eventOpen, eventUpdate]
    cases rdata.getPropertyValue "Mng".toList <;> try rfl
    cases rdata.getPropertyValue "Tnd".toList <;> rfl
  | cronoRec =>
    simp only [eventHandler, eventWalk, eventUpdate]
    cases rdata.getPropertyValue "start".toList <;> rfl
  | command =>
    have hword : "msg ".toList = Command.msg.cmd ++ [' '] := by decide
    simp only [eventHandler, eventCommand, eventUpdate, hword]
    cases rdata.getPropertyValue "Oper".toList <;> try rfl
    next oper =>
    by_cases hoper : oper = "8".toList
    · cases rdata.getPropertyValue "Value".toList with
      | none => simp [hoper]
      | some value =>
        cases hmsg : printPointer null (splitMessage value).2 with
        | none => simp [hoper, hmsg]
        | some msg =>
          simp [hoper, hmsg, Update.apply, Update.text, Update.command, Update.rest]
    · simp only [hoper, if_false, Option.bind_eq_bind, Option.bind_some, Option.pure_def,
        Option.map_some]
      rfl
  | _ => rfl

/-- `process_eventData` in terms of the update of the event. -/
lemma processEventTree_eq (null : Option CString) (config : Configuration) (rdata : Json) :
    processEventTree null config rdata =
      (treeUpdate null (getSessionName config) rdata).map fun u =>
        let result := (u.text config.status).take 255
        ({ config with status := u.apply config.status },
          if result = [] then none else some result) := by
  unfold processEventTree treeUpdate
  by_cases hown : rdata.getPropertyValue "SessionName".toList = some (getSessionName config)
  · rw [if_pos hown, if_pos hown]
    rfl
  · rw [if_neg hown, if_neg hown]
    simp only [Option.bind_eq_bind, Option.pure_def]
    cases rdata.getPropertyValue "Type".toList with
    | none => rfl
    | some typestr =>
      simp only [Option.bind_some]
      cases findEventType typestr with
      | none => simp [Update.apply, Update.text, Update.command]
      | some type =>
        simp only [eventHandler_eq]
        cases eventUpdate null type rdata <;> rfl

end SerialChrono
