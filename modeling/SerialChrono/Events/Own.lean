import SerialChrono.MainSpec
import SerialChrono.Managers.Publish
import SerialChrono.Library.PartialRun

/-!
# The events of this program coming back (`ajax_mgr.c`, `ajax_json.c`)

The server sends every event to all its listeners, the one that published it too.  Two things
keep an event from going round for ever: the ajax manager publishes nothing for a command that
comes from `ac_server` (`ajaxMgrEntries_putEvent`), and `process_eventData` ignores an event
with the session name of this program (`ignores_iff`).

The session name contains the session id, which the ajax thread stores when the server has
answered.  Its handlers are called from the moment the thread has published its table, so an
event can carry the name with the old id; `noLoop_iff_along` says that this is the only way an
event can come back under a name that is not recognised.
-/

namespace SerialChrono

open CText PartialRun

/-! ## The session id -/

/-- The rows `parse_select` goes over, up to the one of the ring.  A row without a name, or the
row of the ring without an id, is a use of NULL. -/
def selectRow (ring : CString) : List Json → Option ℤ
  | [] => some (-1)
  | .obj properties :: rows => do
    let ringNumber ← (Json.obj properties).getPropertyValue "Nombre".toList
    if ringNumber ≠ ring then selectRow ring rows
    else ((Json.obj properties).getPropertyValue "ID".toList).map atoi
  | _ :: rows => selectRow ring rows

/-- `parse_select`: the session of the ring, or -1. -/
def parseSelect (jsonCreate : JsonCreate) (config : Configuration) (jsonStr : CString) :
    Option ℤ :=
  match jsonCreate jsonStr 1024 with
  | none => some (-1)
  | some root =>
    match root.getProperty "rows".toList with
    | some (.arr rows) => selectRow (("Ring ".toList ++ printInt config.ring).take 15) rows
    | _ => some (-1)

/-- `ajax_connect_server`, by the answer to the request, none if it fails. -/
def ajaxConnectServer (jsonCreate : JsonCreate) (config : Configuration) :
    (answer : Option CString) → Option ℤ
  | none => some (-1)
  | some jsonStr => parseSelect jsonCreate config jsonStr

lemma isInt_selectRow {ring : CString} {rows : List Json} {ses : ℤ}
    (h : selectRow ring rows = some ses) : IsInt ses := by
  induction rows with
  | nil =>
    cases h
    decide
  | cons row rows ih =>
    cases row with
    | obj properties =>
      obtain ⟨ringNumber, -, h⟩ := Option.bind_eq_some_iff.mp h
      split_ifs at h with hring
      · exact ih h
      · obtain ⟨sesidstr, -, rfl⟩ := Option.map_eq_some_iff.mp h
        exact atoi_bounds sesidstr
    | arr items => exact ih h
    | value text => exact ih h

lemma isInt_ajaxConnectServer {jsonCreate : JsonCreate} {config : Configuration}
    {answer : Option CString} {ses : ℤ}
    (h : ajaxConnectServer jsonCreate config answer = some ses) : IsInt ses := by
  cases answer with
  | none =>
    cases h
    decide
  | some jsonStr =>
    simp only [ajaxConnectServer, parseSelect] at h
    split at h
    · cases h
      decide
    · split at h
      · exact isInt_selectRow h
      · cases h
        decide

/-! ## The program and its thread -/

/-- How far the ajax thread has come. -/
inductive AjaxThread
  | created
  /-- Its table is there for main to use. -/
  | connecting
  /-- It reads events. -/
  | connected
  /-- It has returned; its slot stays as it is. -/
  | ended
  deriving DecidableEq, Repr

/-- An event that has been published, and the tokens of the command it was published for. -/
structure Publication where
  tokens : Tokens
  event : PutEvent
  deriving DecidableEq, Repr

/-- The configuration, the ajax thread, and the events published so far. -/
structure OwnState where
  config : Configuration
  thread : AjaxThread
  published : List Publication
  deriving DecidableEq, Repr

/-- What can happen. -/
inductive OwnInput
  /-- The ajax thread publishes its table. -/
  | entries
  /-- The answer to the request for the sessions is in. -/
  | connect (answer : Option CString)
  /-- Main receives a datagram.  The managers before the ajax manager leave these tokens in the
  array, behind those sent. -/
  | datagram (bytes : List Char) (behind : Tokens)
  /-- The ajax thread processes the data of an event. -/
  | event (datastr : CString)

/-- The ajax thread stores the session id, or returns. -/
def OwnState.connect (s : OwnState) (ses : ℤ) : OwnState :=
  if ses < 0 then { s with thread := .ended }
  else { s with config.status.sessionID := ses, thread := .connected }

@[simp] lemma OwnState.published_connect (s : OwnState) (ses : ℤ) :
    (s.connect ses).published = s.published := by
  unfold connect
  split <;> rfl

/-- The handlers main finds in the slot of the ajax manager. -/
def AjaxThread.entries :
    AjaxThread → Command → Option (Configuration → Tokens → ℕ → Option AjaxCall)
  | .created => fun _ => none
  | .connecting | .connected | .ended => ajaxMgrEntries

/-- A handler of the ajax manager writes to the configuration before it publishes, if at all. -/
def OwnState.handle (s : OwnState) (tokens : Tokens) (config : Configuration) :
    AjaxCall → OwnState
  | .returns _ => { s with config }
  | .putEvent event =>
    { s with config := event.config, published := s.published ++ [⟨tokens, event⟩] }

/-- A datagram. -/
def OwnState.datagram (s : OwnState) (bytes : List Char) (behind : Tokens) :
    Option OwnState := do
  let buffer ← receive bytes
  match ← mainFront s.config buffer with
  | .answered _ config => return { s with config }
  | .dispatch c tokens config =>
    match s.thread.entries c with
    | none => return { s with config }
    | some handler =>
      let call ← handler config (tokens ++ behind) tokens.length
      return s.handle tokens config call

def ownStep (jsonCreate : JsonCreate) (s : OwnState) : OwnInput → Option OwnState
  | .entries => if s.thread = .created then some { s with thread := .connecting } else none
  | .connect answer =>
    if s.thread = .connecting then
      (ajaxConnectServer jsonCreate s.config answer).map s.connect
    else none
  | .datagram bytes behind => s.datagram bytes behind
  | .event datastr =>
    if s.thread = .connected then
      (processEventData libcNull jsonCreate s.config datastr 0).map fun r => { s with config := r.1 }
    else none

/-- The name of the client as `main` fixes it. -/
def fixClientName (name : CString) : CString := name.map fun c => if c.isAlphanum then c else '_'

/-- The state before the threads are started, with these options. -/
def ownStart (ajaxServer clientName : CString) (ring : ℤ) : OwnState where
  config := { defaultOptions with ajaxServer, clientName := fixClientName clientName, ring }
  thread := .created
  published := []

/-! ## The session name -/

/-- The session id can be read from the name: the truncation is far behind it. -/
lemma atoi_drop_getSessionName {config : Configuration} (h : IsInt config.status.sessionID) :
    atoi ((getSessionName config).drop 7) = config.status.sessionID := by
  have hlen := h.length_printInt
  obtain ⟨k, hk⟩ : ∃ k, 1023 = 7 + (printInt config.status.sessionID).length + (k + 1) :=
    ⟨1015 - (printInt config.status.sessionID).length, by omega⟩
  have htext : (getSessionName config).drop 7 =
      printInt config.status.sessionID ++ ':' :: ("0:0:".toList ++ config.clientName).take k := by
    rw [getSessionName, List.append_assoc, List.append_assoc, hk, Nat.add_assoc, List.drop_take,
      List.drop_left' (by rfl), Nat.add_sub_cancel_left, List.take_length_add_append]
    rfl
  rw [htext]
  exact atoi_printInt_append h.1 h.2 (by simp)

/-- A session name determines the session id. -/
lemma sessionID_eq_of_getSessionName {config config' : Configuration}
    (h : IsInt config.status.sessionID) (h' : IsInt config'.status.sessionID)
    (hname : getSessionName config' = getSessionName config) :
    config'.status.sessionID = config.status.sessionID := by
  rw [← atoi_drop_getSessionName h, ← atoi_drop_getSessionName h', hname]

/-! ## What is published -/

lemma sameSession_of_ajaxMgrPut {type : CString} {data : Option ExtraData} {flag : Bool}
    {config config' : Configuration} {tokens : Tokens} {e : PutEvent}
    (hsame : config.SameSession config')
    (he : some (ajaxMgrPut type data flag config' tokens) = some (.putEvent e)) :
    fromSource scAjaxsrv tokens = false ∧ config.SameSession e.config := by
  unfold ajaxMgrPut at he
  split_ifs at he with hsource
  · cases he
  · cases he
    exact ⟨Bool.eq_false_iff.mpr hsource, hsame⟩

/-- The handlers with arguments look at the source before they read them. -/
lemma putEvent_of_guard {tokens : Tokens} {call : Option AjaxCall} {e : PutEvent}
    (h : (if fromSource scAjaxsrv tokens then some (.returns 0) else call) =
      some (.putEvent e)) : call = some (.putEvent e) := by
  split_ifs at h
  · cases h
  · exact h

/-- A handler of the ajax manager publishes only what does not come from the server, and it
changes neither the session nor the name of the client. -/
lemma ajaxMgrEntries_putEvent {c : Command}
    {handler : Configuration → Tokens → ℕ → Option AjaxCall}
    (hentry : ajaxMgrEntries c = some handler) {config : Configuration} {tokens : Tokens} {n : ℕ}
    {e : PutEvent} (he : handler config tokens n = some (.putEvent e)) :
    fromSource scAjaxsrv tokens = false ∧ config.SameSession e.config := by
  have hsame := Configuration.SameSession.refl config
  cases c with
  | msg =>
    cases hentry
    obtain ⟨duration, -, he⟩ := Option.bind_eq_some_iff.mp (putEvent_of_guard he)
    obtain ⟨first, -, he⟩ := Option.bind_eq_some_iff.mp he
    exact sameSession_of_ajaxMgrPut hsame he
  | walk =>
    cases hentry
    unfold ajaxMgrWalk at he
    replace he := putEvent_of_guard he
    split_ifs at he
    · obtain ⟨start, -, he⟩ := Option.bind_eq_some_iff.mp he
      exact sameSession_of_ajaxMgrPut hsame he
    · exact sameSession_of_ajaxMgrPut hsame he
  | down =>
    cases hentry
    unfold ajaxMgrDown at he
    replace he := putEvent_of_guard he
    split_ifs at he
    · obtain ⟨value, -, he⟩ := Option.bind_eq_some_iff.mp he
      exact sameSession_of_ajaxMgrPut hsame he
    · exact sameSession_of_ajaxMgrPut hsame he
  | turn =>
    cases hentry
    obtain ⟨dorsal, -, he⟩ := Option.bind_eq_some_iff.mp (putEvent_of_guard he)
    refine sameSession_of_ajaxMgrPut ?_ he
    exact ⟨rfl, rfl⟩
  | start | int | stop | fail | ok | fault | refusal | elim | data | reset =>
    cases hentry
    exact sameSession_of_ajaxMgrPut hsame he
  | exit =>
    cases hentry
    cases he
  | help | version | server | ports | config | status | bright | clock | debug => cases hentry

/-! ## What comes back -/

/-- The data of an event that the server has made of this one, with its session name. -/
def Echo (e : PutEvent) (rdata : Json) : Prop :=
  ∃ now, rdata.getPropertyValue "SessionName".toList =
    (e.params now).lookup "SessionName".toList

/-- `process_eventData` returns no command for the event and leaves everything as it is. -/
def Ignores (config : Configuration) (e : PutEvent) : Prop :=
  ∀ (jsonCreate : JsonCreate) (datastr : CString) (timestamp : ℤ) (rdata : Json),
    jsonCreate datastr 128 = some rdata → Echo e rdata →
      ∃ timestamp', processEventData libcNull jsonCreate config datastr timestamp =
        some (config, none, timestamp')

lemma echo_iff {e : PutEvent} {rdata : Json} :
    Echo e rdata ↔
      rdata.getPropertyValue "SessionName".toList = some (getSessionName e.config) := by
  constructor
  · rintro ⟨now, h⟩
    rw [h, params_sessionName]
  · intro h
    exact ⟨0, by rw [h, params_sessionName]⟩

/-- The data of a `crono_reset` published under a session name. -/
def resetEcho (name : CString) : Json :=
  .ofFields [("SessionName".toList, name), ("Type".toList, "crono_reset".toList)]

/-- Under another name it is carried out. -/
lemma processEventTree_resetEcho {config : Configuration} {name : CString}
    (hname : name ≠ getSessionName config) :
    processEventTree libcNull config (resetEcho name) = some (config, some "reset\n".toList) := by
  have hsession : (resetEcho name).getPropertyValue "SessionName".toList = some name := rfl
  have htype : (resetEcho name).getPropertyValue "Type".toList = some "crono_reset".toList := rfl
  have hfind : findEventType "crono_reset".toList = some .cronoReset := by decide
  have hne : some name ≠ some (getSessionName config) := fun h => hname (Option.some.inj h)
  rw [processEventTree, hsession, if_neg hne, htype]
  simp only [Option.bind_eq_bind, Option.bind_some, hfind]
  rfl

/-- An event is ignored exactly while the session name is the one it was published under. -/
lemma ignores_iff {config : Configuration} {e : PutEvent} :
    Ignores config e ↔ getSessionName e.config = getSessionName config := by
  constructor
  · intro h
    by_contra hne
    have htree := processEventTree_resetEcho hne
    have hecho : Echo e (resetEcho (getSessionName e.config)) := echo_iff.mpr rfl
    obtain ⟨timestamp', hdata⟩ := h (fun _ _ => some (resetEcho _)) [] 0 _ rfl hecho
    rw [processEventData_eq rfl, htree] at hdata
    cases hdata
  · intro h jsonCreate datastr timestamp rdata hrdata hecho
    rw [echo_iff, h] at hecho
    have htree : processEventTree libcNull config rdata = some (config, none) := if_pos hecho
    exact ⟨_, by rw [processEventData_eq hrdata, htree, Option.map_some]⟩

/-- No published event was asked for by the server, and each is ignored when it comes back. -/
structure OwnState.NoLoop (s : OwnState) : Prop where
  ignored : ∀ p ∈ s.published, Ignores s.config p.event
  foreign : ∀ p ∈ s.published, fromSource scAjaxsrv p.tokens = false

/-- The session id is stored before anything is published, unless it is the same. -/
def StoredFirst (jsonCreate : JsonCreate) (s : OwnState) : OwnInput → Prop
  | .connect answer => ∀ ses ∈ ajaxConnectServer jsonCreate s.config answer,
    ses < 0 ∨ s.published = [] ∨ ses = s.config.status.sessionID
  | _ => True

/-! ## Steps -/

/-- A step that keeps the session, and publishes for other sources if at all. -/
structure OwnState.Keeps (s t : OwnState) : Prop where
  session : s.config.SameSession t.config
  published : ∀ p ∈ t.published, p ∈ s.published ∨
    fromSource scAjaxsrv p.tokens = false ∧ s.config.SameSession p.event.config

namespace OwnState

variable {s t : OwnState}

lemma keeps_of_config {config : Configuration} (h : s.config.SameSession config) :
    s.Keeps { s with config } := ⟨h, fun _ hp => .inl hp⟩

lemma NoLoop.of_keeps (h : s.NoLoop) (hkeeps : s.Keeps t) : t.NoLoop := by
  constructor
  · intro p hp
    rw [ignores_iff, hkeeps.session.getSessionName_eq]
    rcases hkeeps.published p hp with hold | ⟨-, hnew⟩
    · exact ignores_iff.mp (h.ignored p hold)
    · exact hnew.getSessionName_eq
  · intro p hp
    rcases hkeeps.published p hp with hold | ⟨hforeign, -⟩
    · exact h.foreign p hold
    · exact hforeign

/-- What the handler of the ajax manager leaves. -/
lemma keeps_handle {c : Command} {handler : Configuration → Tokens → ℕ → Option AjaxCall}
    (hentry : ajaxMgrEntries c = some handler) {config : Configuration}
    (hconfig : s.config.SameSession config) {source : CString} {rest behind : Tokens} {n : ℕ}
    {call : AjaxCall} (hcall : handler config (source :: rest ++ behind) n = some call) :
    s.Keeps (s.handle (source :: rest) config call) := by
  cases call with
  | returns res => exact keeps_of_config hconfig
  | putEvent e =>
    obtain ⟨hforeign, hsame⟩ := ajaxMgrEntries_putEvent hentry hcall
    refine ⟨hconfig.trans hsame, fun p hp => ?_⟩
    rcases List.mem_append.mp hp with hold | hnew
    · exact .inl hold
    · rw [List.mem_singleton] at hnew
      subst hnew
      exact .inr ⟨hforeign, hconfig.trans hsame⟩

lemma keeps_datagram {bytes : List Char} {behind : Tokens}
    (h : s.datagram bytes behind = some t) : s.Keeps t := by
  obtain ⟨buffer, -, h⟩ := Option.bind_eq_some_iff.mp h
  obtain ⟨front, hfront, h⟩ := Option.bind_eq_some_iff.mp h
  have hsame := sameSession_front hfront
  cases front with
  | answered response config =>
    cases h
    exact keeps_of_config hsame
  | dispatch c tokens config =>
    obtain ⟨source, args, rfl⟩ := parseLine_command (mainFront_dispatch hfront).1
    dsimp only at h
    split at h
    · cases h
      exact keeps_of_config hsame
    · next handler hentry =>
      obtain ⟨call, hcall, h⟩ := Option.bind_eq_some_iff.mp h
      cases h
      have hentry : ajaxMgrEntries c = some handler := by
        cases hthread : s.thread <;> rw [hthread] at hentry
        · cases hentry
        · exact hentry
        · exact hentry
        · exact hentry
      exact keeps_handle hentry hsame hcall

/-- An event changes neither the session nor the name of the client. -/
lemma keeps_event {jsonCreate : JsonCreate} {datastr : CString} {timestamp : ℤ}
    {r : Configuration × Option CString × ℤ}
    (h : processEventData libcNull jsonCreate s.config datastr timestamp = some r) :
    s.Keeps { s with config := r.1 } := by
  obtain ⟨rdata, hrdata, -⟩ := Option.bind_eq_some_iff.mp h
  rw [processEventData_eq hrdata] at h
  obtain ⟨⟨config, result⟩, htree, h⟩ := Option.map_eq_some_iff.mp h
  cases h
  rw [processEventTree_eq] at htree
  obtain ⟨u, -, htree⟩ := Option.map_eq_some_iff.mp htree
  cases htree
  exact keeps_of_config ⟨u.apply_sessionID s.config.status, rfl⟩

/-- Storing a session id changes the session name, and the events published before are not
recognised any more. -/
lemma noLoop_connect_iff (h : s.NoLoop) (hid : IsInt s.config.status.sessionID) {ses : ℤ}
    (hses : IsInt ses) :
    (s.connect ses).NoLoop ↔ ses < 0 ∨ s.published = [] ∨ ses = s.config.status.sessionID := by
  by_cases hneg : ses < 0
  · have hthread : s.connect ses = { s with thread := .ended } := if_pos hneg
    rw [hthread]
    exact iff_of_true ⟨h.ignored, h.foreign⟩ (.inl hneg)
  · have hstored : s.connect ses =
        { s with config.status.sessionID := ses, thread := .connected } := if_neg hneg
    rw [hstored, or_iff_right hneg]
    constructor
    · intro hafter
      rcases hpublished : s.published with - | ⟨p, rest⟩
      · exact .inl rfl
      · right
        have hp : p ∈ s.published := by simp [hpublished]
        have hbefore := ignores_iff.mp (h.ignored p hp)
        have hname := ignores_iff.mp (hafter.ignored p hp)
        exact sessionID_eq_of_getSessionName hid hses (hname.symm.trans hbefore)
    · rintro (hnone | rfl)
      · refine ⟨fun p hp => ?_, fun p hp => ?_⟩ <;>
        · dsimp only at hp
          rw [hnone] at hp
          cases hp
      · exact ⟨h.ignored, h.foreign⟩

end OwnState

/-! ## Runs -/

/-- The session id is an `int`, and the name of the client is the one `main` has fixed. -/
structure OwnState.Identified (clientName : CString) (s : OwnState) : Prop where
  sessionID : IsInt s.config.status.sessionID
  clientName : s.config.clientName = fixClientName clientName

/-- A step keeps the session, or stores a session id. -/
lemma ownStep_cases {jsonCreate : JsonCreate} {s t : OwnState} {i : OwnInput}
    (h : ownStep jsonCreate s i = some t) :
    s.Keeps t ∧ StoredFirst jsonCreate s i ∨
      ∃ answer ses, i = .connect answer ∧
        ajaxConnectServer jsonCreate s.config answer = some ses ∧ t = s.connect ses := by
  cases i with
  | entries =>
    simp only [ownStep] at h
    split_ifs at h
    cases h
    exact .inl ⟨⟨.refl s.config, fun _ hp => .inl hp⟩, trivial⟩
  | connect answer =>
    simp only [ownStep] at h
    split_ifs at h
    obtain ⟨ses, hses, rfl⟩ := Option.map_eq_some_iff.mp h
    exact .inr ⟨answer, ses, rfl, hses, rfl⟩
  | datagram bytes behind => exact .inl ⟨OwnState.keeps_datagram h, trivial⟩
  | event datastr =>
    simp only [ownStep] at h
    split_ifs at h
    obtain ⟨r, hr, rfl⟩ := Option.map_eq_some_iff.mp h
    exact .inl ⟨OwnState.keeps_event hr, trivial⟩

lemma identified_step {jsonCreate : JsonCreate} {clientName : CString} {s t : OwnState}
    {i : OwnInput} (h : s.Identified clientName) (hstep : ownStep jsonCreate s i = some t) :
    t.Identified clientName := by
  rcases ownStep_cases hstep with ⟨hkeeps, -⟩ | ⟨answer, ses, rfl, hses, rfl⟩
  · obtain ⟨hid, hclient⟩ := hkeeps.session
    exact ⟨by rw [hid]; exact h.sessionID, by rw [hclient]; exact h.clientName⟩
  · unfold OwnState.connect
    split
    · exact ⟨h.sessionID, h.clientName⟩
    · exact ⟨isInt_ajaxConnectServer hses, h.clientName⟩

/-- A step keeps the events of this program from going round exactly if it stores no session id
too late. -/
lemma noLoop_step_iff {jsonCreate : JsonCreate} {clientName : CString} {s t : OwnState}
    {i : OwnInput} (h : s.Identified clientName) (hloop : s.NoLoop)
    (hstep : ownStep jsonCreate s i = some t) : t.NoLoop ↔ StoredFirst jsonCreate s i := by
  rcases ownStep_cases hstep with ⟨hkeeps, hstored⟩ | ⟨answer, ses, rfl, hses, rfl⟩
  · exact iff_of_true (hloop.of_keeps hkeeps) hstored
  · rw [OwnState.noLoop_connect_iff hloop h.sessionID (isInt_ajaxConnectServer hses)]
    simp [StoredFirst, hses]

lemma identified_ownStart (ajaxServer clientName : CString) (ring : ℤ) :
    (ownStart ajaxServer clientName ring).Identified clientName := by
  have hzero : IsInt 0 := by decide
  exact ⟨hzero, rfl⟩

lemma noLoop_ownStart (ajaxServer clientName : CString) (ring : ℤ) :
    (ownStart ajaxServer clientName ring).NoLoop := by
  constructor <;>
  · intro p hp
    cases hp

/-- In every run, nothing is published for the server. -/
theorem always_foreign (jsonCreate : JsonCreate) (ajaxServer clientName : CString) (ring : ℤ)
    (inputs : List OwnInput) :
    Always (ownStep jsonCreate) (fun s => ∀ p ∈ s.published, fromSource scAjaxsrv p.tokens = false)
      (ownStart ajaxServer clientName ring) inputs := by
  have hstep : ∀ s i t, (∀ p ∈ s.published, fromSource scAjaxsrv p.tokens = false) → True →
      ownStep jsonCreate s i = some t → ∀ p ∈ t.published, fromSource scAjaxsrv p.tokens = false := by
    intro s i t h _ hstep p hp
    rcases ownStep_cases hstep with ⟨hkeeps, -⟩ | ⟨answer, ses, -, -, rfl⟩
    · rcases hkeeps.published p hp with hold | ⟨hforeign, -⟩
      · exact h p hold
      · exact hforeign
    · rw [OwnState.published_connect] at hp
      exact h p hp
  exact always_of_along hstep (fun _ hp => by cases hp) (along_of_forall (fun _ _ => trivial) _)

/-- A character that stands for itself in the query of a URL. -/
def urlSafe (c : Char) : Bool := c.isAlphanum || c == ':' || c == '-' || c == '_'

lemma urlSafe_fixClientName {name : CString} {c : Char} (h : c ∈ fixClientName name) :
    urlSafe c = true := by
  obtain ⟨d, -, rfl⟩ := List.mem_map.mp h
  split_ifs with hd
  · simp [urlSafe, hd]
  · decide

lemma urlSafe_printInt {x : ℤ} {c : Char} (h : c ∈ printInt x) : urlSafe c = true := by
  rcases mem_printInt h with rfl | hdigit
  · decide
  · simp [urlSafe, Char.isAlphanum, hdigit]

/-- No character of the session name is escaped. -/
lemma urlSafe_getSessionName {config : Configuration} {clientName : CString}
    (h : config.clientName = fixClientName clientName) :
    ∀ c ∈ getSessionName config, urlSafe c = true := by
  intro c hc
  have hmem := List.mem_of_mem_take hc
  simp only [List.mem_append] at hmem
  have hscheme : ∀ d ∈ "chrono:".toList, urlSafe d = true := List.all_eq_true.mp (by decide)
  have hzeros : ∀ d ∈ ":0:0:".toList, urlSafe d = true := List.all_eq_true.mp (by decide)
  rcases hmem with ((hc | hc) | hc) | hc
  · exact hscheme c hc
  · exact urlSafe_printInt hc
  · exact hzeros c hc
  · exact urlSafe_fixClientName (h ▸ hc)

/-- In every run, the session name needs no escape in the URL of a request, so that a server
that decodes the parameter gets it unchanged. -/
theorem always_urlSafe (jsonCreate : JsonCreate) (ajaxServer clientName : CString) (ring : ℤ)
    (inputs : List OwnInput) :
    Always (ownStep jsonCreate) (fun s => ∀ c ∈ getSessionName s.config, urlSafe c = true)
      (ownStart ajaxServer clientName ring) inputs := by
  have hidentified : Always (ownStep jsonCreate) (OwnState.Identified clientName)
      (ownStart ajaxServer clientName ring) inputs :=
    always_of_along (fun _ _ _ h _ hstep => identified_step h hstep)
      (identified_ownStart ajaxServer clientName ring) (along_of_forall (fun _ _ => trivial) _)
  exact hidentified.imp fun s h => urlSafe_getSessionName h.clientName

/-- **No event loop.** The events of a run are all ignored when they come back, at every later
point of it, if and only if no session id is stored after the first of them. -/
theorem noLoop_iff_along (jsonCreate : JsonCreate) (ajaxServer clientName : CString) (ring : ℤ)
    (inputs : List OwnInput) :
    Always (ownStep jsonCreate) OwnState.NoLoop (ownStart ajaxServer clientName ring) inputs ↔
      Along (ownStep jsonCreate) (StoredFirst jsonCreate) (ownStart ajaxServer clientName ring)
        inputs :=
  always_iff_along (fun _ _ _ h hstep => identified_step h hstep)
    (fun _ _ _ h hloop hstep => noLoop_step_iff h hloop hstep)
    (identified_ownStart ajaxServer clientName ring) (noLoop_ownStart ajaxServer clientName ring)

/-- The answer with the sessions of the server. -/
def sessionsText : CString :=
  "\x7b\"total\":1,\"rows\":[\x7b\"ID\":\"3\",\"Nombre\":\"Ring 1\"\x7d]\x7d".toList

/-- The session of the first ring is number 3. -/
def sessionsJson : JsonCreate := fun text _ =>
  if text = sessionsText then
    some (.obj [("rows".toList,
      .arr [.ofFields [("ID".toList, "3".toList), ("Nombre".toList, "Ring 1".toList)]])])
  else none

/-- A start published before the server has answered is carried out when it comes back. -/
theorem published_before_connect :
    ¬ ∀ (jsonCreate : JsonCreate) (ajaxServer clientName : CString) (ring : ℤ)
      (inputs : List OwnInput),
      Always (ownStep jsonCreate) OwnState.NoLoop (ownStart ajaxServer clientName ring)
        inputs := by
  intro h
  have hafter := h sessionsJson "localhost".toList "generic".toList 1
    [.entries, .datagram "comm_server start 0".toList [], .connect (some sessionsText)]
  have hrun : run (ownStep sessionsJson) (ownStart "localhost".toList "generic".toList 1)
      [.entries, .datagram "comm_server start 0".toList [], .connect (some sessionsText)] =
        some ⟨{ defaultOptions with status.startTime := 0, status.sessionID := 3 }, .connected,
          [⟨["comm_server".toList, "start".toList, "0".toList],
            ⟨{ defaultOptions with status.startTime := 0 }, "crono_start".toList,
              some (.ofValue "1".toList), false⟩⟩]⟩ := by
    decide
  have hignored := (hafter.of_run hrun).ignored _ (List.mem_singleton.mpr rfl)
  exact absurd (ignores_iff.mp hignored) (by decide)

end SerialChrono
