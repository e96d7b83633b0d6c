import SerialChrono.MainMgr

/-!
# The driver of the network chronometer (`modules/canometroweb.c`)

The chronometer is a web server: the driver asks it for its status or its configuration, in
XML, and sends it orders.  `moduleRead` polls the status and makes a command of what has
changed; `moduleWrite` carries a command out.  Both take the semaphore `sem` before they do
anything else, and each of their exits has to give it back.

Two parts are left open.  `Device` is the chronometer, with any state and any answers; and
`XmlReader` stands for libxml.  The address of the chronometer, the same in every request, is
left out.  `none` is the use of a null pointer: a missing token, or an element without text.
-/

namespace SerialChrono

open CText

/-! ## The status and the configuration of the chronometer -/

/-- `canometroweb_data_t`. -/
structure CanometrowebData where
  uptime : ℤ
  tiempo : ℤ
  running : ℤ
  countdown : ℤ
  faltas : ℤ
  rehuses : ℤ
  eliminado : ℤ
  cuentaresultados : ℤ
  versionresultados : ℤ
  deriving DecidableEq, Repr

/-- What `calloc` gives. -/
def CanometrowebData.zero : CanometrowebData := ⟨0, 0, 0, 0, 0, 0, 0, 0, 0⟩

/-- `canometroweb_config_t`. -/
structure CanometrowebConfig where
  brightness : Option CString
  precision : Option CString
  guardtime : ℤ
  walktime : ℤ
  walkstyle : Option CString
  ring : ℤ
  deriving DecidableEq, Repr

/-- An element of an XML document: its name and its text, if it has any. -/
abbrev XmlElement := CString × Option CString

/-- `xmlReadMemory` with the walk over the children of the root: the elements among them, or
nothing if there is no tree or the document is empty. -/
abbrev XmlReader := (xml : CString) → Option (List XmlElement)

/-- A `char` as it is widened to `unsigned int`. -/
def widenChar (c : Char) : UInt32 :=
  if c.toNat < 128 then c.toNat.toUInt32 else c.toNat.toUInt32 ||| 0xffffff00

/-- `strhash` (`sc_tools.c`). -/
def strhash (key : CString) : UInt32 :=
  key.foldl (fun h c =>
    let h := (h ^^^ widenChar c) * 0x5bd1e995
    h ^^^ (h >>> 15)) 3323198485

/-- What an element of the status is for. -/
inductive StatusField
  | ignored | uptime | tiempo | running | countdown | faltas | rehuses | eliminado
  | cuentaresultados | versionresultados
  deriving DecidableEq, Repr

/-- The cases of `parse_status_xml`, by the hash of the name. -/
def statusFields : List (UInt32 × StatusField) :=
  [ -- systemip, ethip, wlanip
    (1384135232, .ignored), (3513656618, .ignored), (879605700, .ignored),
    -- millistime, uptime
    (2684650499, .uptime), (1460523255, .uptime),
    -- tiempoactual, time
    (745070122, .tiempo), (453318486, .tiempo),
    -- cronocorriendo, running
    (596062245, .running), (1729232476, .running),
    -- countdown
    (2869542252, .countdown),
    -- faltas, faults
    (1669014770, .faltas), (2573711985, .faltas),
    -- refusals, rehuses
    (1027329196, .rehuses), (3483516292, .rehuses),
    -- eliminado, elimination
    (1848729312, .eliminado), (3898589209, .eliminado),
    -- cuentaresultados, nresults
    (2909132481, .cuentaresultados), (1236622162, .cuentaresultados),
    -- versionresultados, resultversion
    (452169101, .versionresultados), (1062725413, .versionresultados),
    -- info
    (2175182841, .ignored)]

/-- The names the hashes of `statusFields` were calculated from, in the same order. -/
def statusNames : List CString :=
  ["systemip".toList, "ethip".toList, "wlanip".toList, "millistime".toList, "uptime".toList,
    "tiempoactual".toList, "time".toList, "cronocorriendo".toList, "running".toList,
    "countdown".toList, "faltas".toList, "faults".toList, "refusals".toList, "rehuses".toList,
    "eliminado".toList, "elimination".toList, "cuentaresultados".toList, "nresults".toList,
    "versionresultados".toList, "resultversion".toList, "info".toList]

/-- The precalculated hashes are right, and no two names share one. -/
theorem statusFields_hash :
    statusFields.map Prod.fst = statusNames.map strhash ∧
      (statusFields.map Prod.fst).Nodup := by
  decide

/-- One turn of the loop of `parse_status_xml`. -/
def parseStatusElement (pt : CanometrowebData) (element : XmlElement) :
    Option CanometrowebData :=
  let attr := element.2
  match statusFields.lookup (strhash element.1) with
  | some .uptime => attr.map fun a => { pt with uptime := atoi a }
  | some .tiempo => attr.map fun a => { pt with tiempo := atol a }
  | some .running => attr.map fun a => { pt with running := atoi a }
  | some .countdown => attr.map fun a => { pt with countdown := atoi a }
  | some .faltas => attr.map fun a => { pt with faltas := atoi a }
  | some .rehuses => attr.map fun a => { pt with rehuses := atoi a }
  | some .eliminado => attr.map fun a => { pt with eliminado := atoi a }
  | some .cuentaresultados => attr.map fun a => { pt with cuentaresultados := atoi a }
  | some .versionresultados => attr.map fun a => { pt with versionresultados := atoi a }
  | some .ignored | none => some pt

/-- `parse_status_xml`: NULL if the text cannot be read. -/
def parseStatusXml (readXml : XmlReader) (pt : CanometrowebData) (xml : CString) :
    Option (Option CanometrowebData) :=
  match readXml xml with
  | none => some none
  | some elements => (elements.foldlM parseStatusElement pt).map some

/-- What an element of the configuration is for. -/
inductive ConfigField
  | brightness | precision | guardtime | walktime | walkstyle | ring
  deriving DecidableEq, Repr

/-- The cases of `parse_config_xml`, by the hash of the name. -/
def configFields : List (UInt32 × ConfigField) :=
  [(47090558, .brightness), (1983694643, .precision), (563329470, .guardtime),
    (3258535140, .walktime), (781678146, .walkstyle), (3239119231, .ring)]

/-- The names the hashes of `configFields` were calculated from, in the same order. -/
def configNames : List CString :=
  ["Brightness".toList, "Precision".toList, "Guardtime".toList, "Walktime".toList,
    "Walkstyle".toList, "Ring".toList]

theorem configFields_hash :
    configFields.map Prod.fst = configNames.map strhash ∧
      (configFields.map Prod.fst).Nodup := by
  decide

/-- One turn of the loop of `parse_config_xml`. -/
def parseConfigElement (pt : CanometrowebConfig) (element : XmlElement) :
    Option CanometrowebConfig :=
  let attr := element.2
  match configFields.lookup (strhash element.1) with
  | some .brightness => some { pt with brightness := attr }
  | some .precision => some { pt with precision := attr }
  | some .guardtime => attr.map fun a => { pt with guardtime := atoi a }
  | some .walktime => attr.map fun a => { pt with walktime := atoi a }
  | some .walkstyle => some { pt with walkstyle := attr }
  | some .ring => attr.map fun a => { pt with ring := atoi a }
  | none => some pt

/-- `parse_config_xml`: NULL if the text cannot be read. -/
def parseConfigXml (readXml : XmlReader) (pt : CanometrowebConfig) (xml : CString) :
    Option (Option CanometrowebConfig) :=
  match readXml xml with
  | none => some none
  | some elements => (elements.foldlM parseConfigElement pt).map some

/-! ## Requests -/

/-- The parameters `tipo` and `valor` of a request. -/
abbrev Order := CString × CString

/-- A request of `sendrec`. -/
structure Request where
  page : CString
  postdata : CString
  wantresponse : Bool
  deriving DecidableEq, Repr

/-- The chronometer and the connection to it.  The answer is what was received of the body,
nothing at all of it after a failure; it is NULL only if no request could be made. -/
structure Device (D : Type) where
  respond : D → Request → Option CString × D

/-- The static variables of the driver, and the state of the chronometer. -/
structure DriverState (D : Type) where
  cwData : CanometrowebData
  cwConfig : CanometrowebConfig
  sem : ℕ
  device : D

variable {D : Type} (dev : Device D)

/-- `sendrec`.  A body that is not wanted goes to the standard output. -/
def sendrec (s : DriverState D) (page : CString) (order : Option Order) (wantresponse : Bool) :
    Option CString × DriverState D :=
  let postdata := match order with
    | some (tipo, valor) => "tipo=".toList ++ tipo ++ "&valor=".toList ++ valor
    | none => []
  let (response, device) :=
    dev.respond s.device { page, postdata := postdata.take 254, wantresponse }
  (if wantresponse then response else response.map fun _ => [], { s with device })

/-- The macro `delta`. -/
def delta (x y : ℤ) : ℤ := if x > y then 1 else if x < y then -1 else 0

/-- The loops that bring a counter of the chronometer from `cur` to `target` one by one. -/
def sendSteps (tipo : CString) (target cur : ℤ) (s : DriverState D) : DriverState D :=
  if _h : delta target cur = 0 then s
  else
    let valor := if 0 < delta target cur then "1".toList else "-1".toList
    let (_, s) := sendrec dev s "canometro_accion".toList (some (tipo, valor)) false
    sendSteps tipo target (cur + delta target cur) s
  termination_by (target - cur).natAbs
  decreasing_by
    unfold delta at *
    split_ifs at * <;> omega

/-- `synchronize_chrono`, which the callers run inside the lock.  The arguments of `strstr` are
the wrong way round: it looks for the whole answer in the keyword. -/
def synchronizeChrono (readXml : XmlReader) (config : Configuration) (s : DriverState D) :
    Option (ℤ × DriverState D) :=
  let (response, s) := sendrec dev s "xml".toList none true
  match response with
  | none => some (-1, s)
  | some data => do
    let newer := strstr "uptime".toList data
    match ← parseStatusXml readXml .zero data with
    | none => return (-1, s)
    | some status =>
      let ft := config.status.faults + config.status.touchs
      let r := config.status.refusals
      let send tipo valor s :=
        (sendrec dev s "canometro_accion".toList (some (tipo, valor)) false).2
      let s :=
        if newer then send "TR".toList (printInt r) (send "TF".toList (printInt ft) s)
        else sendSteps dev "R".toList r status.rehuses
          (sendSteps dev "F".toList ft status.faltas s)
      let s :=
        if config.status.eliminated ≠ status.eliminado then send "E".toList "0".toList s else s
      return (0, { s with
        cwData.eliminado := config.status.eliminated
        cwData.rehuses := config.status.refusals
        cwData.faltas := config.status.faults })

/-! ## The semaphore -/

/-- What becomes of a call. -/
inductive Outcome (α : Type)
  | returned (result : α)
  /-- The call waits for a semaphore that is at zero. -/
  | blocked
  deriving DecidableEq, Repr

/-- `sem_wait`, and what the caller does after it. -/
def semWait {α : Type} (s : DriverState D) (body : DriverState D → Option α) :
    Option (Outcome α) :=
  if s.sem = 0 then some .blocked else (body { s with sem := s.sem - 1 }).map .returned

/-- `sem_post`. -/
def semPost (s : DriverState D) : DriverState D := { s with sem := s.sem + 1 }

/-! ## `module_read` -/

/-- The command for a change of the running state, from the stored data and the received. -/
def readCommand (stored received : CanometrowebData) : CString :=
  let mask := (if stored.running = 0 then 0 else 8) + (if stored.tiempo = 0 then 0 else 4) +
    (if received.running = 0 then 0 else 2) + (if received.tiempo = 0 then 0 else 1)
  match mask with
  | 0x02 | 0x03 => "START 0\n".toList
  | 0x04 => "RESET\n".toList
  | 0x06 | 0x07 => "START 0\n".toList
  | 0x08 => "RESET\n".toList
  | 0x0c => "RESET\n".toList
  | 0x0d => "STOP ".toList ++ printULong received.tiempo ++ "\n".toList
  | 0x0e => "START 0\n".toList
  | 0x0f =>
    if stored.tiempo = received.tiempo then
      "INT ".toList ++ printULong received.tiempo ++ "\n".toList
    else []
  | _ => []

/-- What `module_read` returns: its result, what it writes to the buffer, if anything, and the
state it leaves. -/
abbrev ReadResult (D : Type) := ℤ × Option CString × DriverState D

/-- `module_read`; `length` is not zero. -/
def moduleRead (readXml : XmlReader) (config : Configuration) (length : ℕ) (s : DriverState D) :
    Option (Outcome (ReadResult D)) :=
  semWait s fun s =>
    let (received, s) := sendrec dev s "xml".toList none true
    match received with
    | none => some (0, none, semPost s)
    | some received => do
      match ← parseStatusXml readXml .zero received with
      | none => return (-1, none, semPost s)
      | some data =>
        let buffer := (readCommand s.cwData data).take (length - 1)
        let s := { s with cwData.tiempo := data.tiempo, cwData.running := data.running }
        if buffer ≠ [] then return (buffer.length, some buffer, semPost s)
        if data.faltas ≠ config.status.faults + config.status.touchs ∨
            data.rehuses ≠ config.status.refusals ∨
            data.eliminado ≠ config.status.eliminated then
          let s := { s with
            cwData.faltas := data.faltas
            cwData.rehuses := data.rehuses
            cwData.eliminado := data.eliminado }
          let buffer := ("DATA ".toList ++ printInt s.cwData.faltas ++ ':' ::
            printInt s.cwData.rehuses ++ ':' :: printInt s.cwData.eliminado).take (length - 1)
          return (buffer.length, some buffer, semPost s)
        return (0, some [], semPost s)

/-! ## `module_write` -/

/-- What `module_write` returns: its result and the state it leaves. -/
abbrev WriteResult (D : Type) := ℤ × DriverState D

/-- The end of `module_write`: the request that has been prepared, and the release of the
lock. -/
def writeRequest (s : DriverState D) (page : CString) (order : Option Order) : WriteResult D :=
  let (result, s) := sendrec dev s page order order.isNone
  match result with
  | none => (-1, semPost s)
  | some _ => (0, semPost s)

/-- `fault`, `refusal`, `elim` and `data`.  When the synchronization fails the function is left
with the lock taken. -/
def writeCounters (readXml : XmlReader) (config : Configuration) (s : DriverState D) :
    Option (WriteResult D) := do
  let (res, s) ← synchronizeChrono dev readXml config s
  if res < 0 then return (-1, s)
  return writeRequest dev s [] none

/-- `walk`: zero minutes stop a course walk. -/
def writeWalk (s : DriverState D) (tokens : Tokens) : Option (WriteResult D) := do
  let minutes := (atoi (← tokens[2]?)).tdiv 60
  if minutes = 0 then
    return writeRequest dev s "canometro_accion".toList (some ("0".toList, "0".toList))
  let s :=
    if s.cwConfig.walktime ≠ minutes then
      (sendrec dev { s with cwConfig.walktime := minutes } "configuracion_accion".toList
        (some ("Walktime".toList, printInt minutes)) false).2
    else s
  return writeRequest dev s "canometro_accion".toList (some ("W".toList, "0".toList))

/-- `config`. -/
def writeConfig (readXml : XmlReader) (s : DriverState D) : Option (WriteResult D) :=
  let (result, s) := sendrec dev s "config_xml".toList none true
  match result with
  | none => some (-1, semPost s)
  | some xml => do
    let cwConfig ← parseConfigXml readXml s.cwConfig xml
    return (0, semPost { s with cwConfig := cwConfig.getD s.cwConfig })

/-- `status`. -/
def writeStatus (readXml : XmlReader) (s : DriverState D) : Option (WriteResult D) :=
  let (result, s) := sendrec dev s "xml".toList none true
  match result with
  | none => some (-1, semPost s)
  | some xml => do
    let cwData ← parseStatusXml readXml s.cwData xml
    return (0, semPost { s with cwData := cwData.getD s.cwData })

/-- `module_write`.  The commands the chronometer does not know are reported and then end in a
request without a page; the words that are not in the chain of comparisons end at once. -/
def moduleWrite (readXml : XmlReader) (config : Configuration) (tokens : Tokens)
    (s : DriverState D) : Option (Outcome (WriteResult D)) :=
  semWait s fun s => do
    let cmd ← tokens[1]?
    match findCommand (toLower cmd) with
    | some .start =>
      return writeRequest dev s (if s.cwData.running = 0 then "startstop".toList else []) none
    | some .stop =>
      return writeRequest dev s (if s.cwData.running = 1 then "startstop".toList else []) none
    | some .int | some .fail | some .ok | some .msg | some .help | some .version | some .exit
    | some .server | some .ports | some .turn | some .clock => return writeRequest dev s [] none
    | some .walk => writeWalk dev s tokens
    | some .down =>
      return writeRequest dev s "canometro_accion".toList (some ("C".toList, "0".toList))
    | some .fault | some .refusal | some .elim | some .data => writeCounters dev readXml config s
    | some .reset =>
      return writeRequest dev s "canometro_accion".toList (some ("0".toList, "0".toList))
    | some .config => writeConfig dev readXml s
    | some .status => writeStatus dev readXml s
    | some .bright | some .debug | none => return (0, semPost s)

end SerialChrono
