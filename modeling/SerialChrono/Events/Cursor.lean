import SerialChrono.Events.Decode
import SerialChrono.Library.Cursor
import SerialChrono.Library.PartialRun

/-!
# Every event once

The ajax thread asks again and again for the events after `evtid`, the ID of the last one it has
seen.  A request may fail and a response may be rejected; `parse_events` rejects a response before
it looks at its rows, and then leaves `evtid` alone.  So the cursor is always where the events
handed to `process_eventData` end, and `events_once` follows from the law of readers by a cursor:
whatever fails, these are the events of the session after the first request, in their order, none
twice and none left out.
-/

namespace SerialChrono

open CText PartialRun

/-! ## What a response hands over -/

/-- The data of a row, if it is an object that has some. -/
def rowData (row : Json) : Option CString :=
  match row with
  | .obj _ => row.getPropertyValue "Data".toList
  | _ => none

/-- The rows of a response, unless `parse_events` rejects it. -/
def responseRows (jsonCreate : JsonCreate) (body : CString) : Option (List Json) := do
  let root ← jsonCreate body (body.countP fun c => c == ':' || c == '[' || c == '{')
  let total ← root.getPropertyValue "total".toList
  match root.getProperty "rows".toList with
  | some (.arr rows) => if 1 + atoi total < 0 then none else some rows
  | _ => none

/-- `process_eventData` on some data, one after the other: the configuration, the commands and the
timestamp it leaves. -/
def processAll (jsonCreate : JsonCreate) (config : Configuration) (timestamp : ℤ) :
    List CString → Option (Configuration × List CString × ℤ)
  | [] => some (config, [], timestamp)
  | data :: rest => do
    let (config, result, timestamp) ← processEventData libcNull jsonCreate config data timestamp
    let (config, cmds, timestamp) ← processAll jsonCreate config timestamp rest
    return (config, result.toList ++ cmds, timestamp)

variable {jsonCreate : JsonCreate}

/-- A rejected response changes nothing. -/
lemma parseEvents_rejected {body : CString} (h : responseRows jsonCreate body = none)
    (config : Configuration) (evtid timestamp : ℤ) :
    parseEvents libcNull jsonCreate config body evtid timestamp =
      some (⟨config, evtid, timestamp, []⟩, .error) := by
  unfold responseRows at h
  unfold parseEvents
  rcases hroot : jsonCreate body _ with - | root
  · rfl
  · simp only [hroot, Option.bind_eq_bind, Option.bind_some] at h ⊢
    unfold parseEventsTree
    rcases htotal : root.getPropertyValue "total".toList with - | total
    · rfl
    · simp only [htotal, Option.bind_some] at h ⊢
      rcases hrows : root.getProperty "rows".toList with - | (properties | rows | text)
      · rfl
      · rfl
      · simp only [hrows] at h ⊢
        split_ifs at h with hcapacity
        exact if_pos hcapacity
      · rfl

/-- A response that is not rejected is gone over row by row. -/
lemma parseEvents_accepted {body : CString} {rows : List Json}
    (h : responseRows jsonCreate body = some rows) (config : Configuration) (evtid timestamp : ℤ) :
    ∃ capacity, parseEvents libcNull jsonCreate config body evtid timestamp =
      (eventRows libcNull jsonCreate capacity ⟨config, evtid, timestamp, []⟩ rows).map
        fun st => (st, .commands st.cmds capacity) := by
  obtain ⟨root, hroot, h⟩ := Option.bind_eq_some_iff.mp h
  obtain ⟨total, htotal, h⟩ := Option.bind_eq_some_iff.mp h
  refine ⟨1 + atoi total, ?_⟩
  unfold parseEvents
  simp only [hroot]
  unfold parseEventsTree
  simp only [htotal]
  rcases hrows : root.getProperty "rows".toList with - | (properties | rows' | text) <;>
    simp only [hrows] at h ⊢
  · cases h
  · cases h
  · split_ifs at h with hcapacity
    cases h
    rw [if_neg hcapacity, Option.map_eq_bind]
    rfl
  · cases h

/-- The loop over the rows hands their data to `process_eventData`, in their order. -/
lemma eventRows_processAll {capacity : ℤ} {st t : EventsState} {rows : List Json}
    (h : eventRows libcNull jsonCreate capacity st rows = some t) :
    ∃ cmds, processAll jsonCreate st.config st.timestamp (rows.filterMap rowData) =
        some (t.config, cmds, t.timestamp) ∧ t.cmds = st.cmds ++ cmds := by
  induction rows generalizing st with
  | nil =>
    cases h
    exact ⟨[], rfl, (List.append_nil _).symm⟩
  | cons row rows ih =>
    obtain ⟨st', hrow, h⟩ := Option.bind_eq_some_iff.mp h
    obtain ⟨cmds, hcmds, hlast⟩ := ih h
    rcases row with properties | items | text
    · obtain ⟨eventstr, -, hrow⟩ := Option.bind_eq_some_iff.mp hrow
      have hrowData : rowData (.obj properties) =
          (Json.obj properties).getPropertyValue "Data".toList := rfl
      rcases hdata : (Json.obj properties).getPropertyValue "Data".toList with - | data <;>
        simp only [hdata] at hrow <;> rw [hdata] at hrowData
      · cases hrow
        exact ⟨cmds, by rw [List.filterMap_cons_none hrowData]; exact hcmds, hlast⟩
      · obtain ⟨⟨config, result, timestamp⟩, hprocess, hrow⟩ := Option.bind_eq_some_iff.mp hrow
        dsimp only at hrow
        split_ifs at hrow
        cases hrow
        refine ⟨result.toList ++ cmds, ?_, by rw [hlast, List.append_assoc]⟩
        rw [List.filterMap_cons_some hrowData]
        simp only [processAll, hprocess, Option.bind_eq_bind, Option.bind_some]
        dsimp only at hcmds
        rw [hcmds]
        rfl
    · cases hrow
      exact ⟨cmds, hcmds, hlast⟩
    · cases hrow
      exact ⟨cmds, hcmds, hlast⟩

/-- The data of its rows is all a response hands to `process_eventData`, and nothing if it is
rejected. -/
theorem parseEvents_processAll {config : Configuration} {body : CString} {evtid timestamp : ℤ}
    {st : EventsState} {reply : EventsReply}
    (h : parseEvents libcNull jsonCreate config body evtid timestamp = some (st, reply)) :
    processAll jsonCreate config timestamp
        (((responseRows jsonCreate body).getD []).filterMap rowData) =
      some (st.config, st.cmds, st.timestamp) := by
  rcases hrows : responseRows jsonCreate body with - | rows
  · rw [parseEvents_rejected hrows] at h
    cases h
    rfl
  · obtain ⟨capacity, haccepted⟩ := parseEvents_accepted hrows config evtid timestamp
    rw [haccepted] at h
    obtain ⟨st', hst, h⟩ := Option.map_eq_some_iff.mp h
    cases h
    obtain ⟨cmds, hcmds, hlast⟩ := eventRows_processAll hst
    rw [List.nil_append] at hlast
    rw [hlast]
    exact hcmds

/-! ## The events of a session -/

/-- An event as it stands in a response: an object with an ID. -/
structure SessionEvent where
  properties : List (CString × Json)
  idText : CString
  hasID : (Json.obj properties).getPropertyValue "ID".toList = some idText

namespace SessionEvent

def row (event : SessionEvent) : Json := .obj event.properties

/-- The ID, as the program reads it. -/
def id (event : SessionEvent) : ℤ := atoi event.idText

def hasData (event : SessionEvent) : Bool := (rowData event.row).isSome

end SessionEvent

/-- The events of a session, in the order of their IDs. -/
structure Session where
  events : List SessionEvent
  ascending : events.Pairwise fun a b => a.id < b.id

namespace Session

variable (session : Session)

/-- The events with a greater ID. -/
def after (evtid : ℤ) : List SessionEvent := Cursor.after SessionEvent.id evtid session.events

/-- The rows of the events with a greater ID that have data. -/
def dataAfter (evtid : ℤ) : List Json :=
  ((session.after evtid).filter SessionEvent.hasData).map SessionEvent.row

end Session

/-! ## Runs of requests -/

/-- What the ajax thread keeps from one request to the next, with the configuration and all the
rows whose data has been handed to `process_eventData`. -/
structure CursorRun where
  config : Configuration
  evtid : ℤ
  timestamp : ℤ
  handed : List Json

/-- A request that fails, one that is answered, or a write of another thread to the
configuration. -/
inductive CursorInput
  | failed
  | response (body : CString)
  | write (config : Configuration)

def cursorStep (jsonCreate : JsonCreate) (r : CursorRun) : CursorInput → Option CursorRun
  | .failed => some r
  | .response body => do
    let (st, _) ← parseEvents libcNull jsonCreate r.config body r.evtid r.timestamp
    let rows := (responseRows jsonCreate body).getD []
    return ⟨st.config, st.evtid, st.timestamp,
      r.handed ++ rows.filter fun row => (rowData row).isSome⟩
  | .write config => some { r with config }

/-- A response that is not rejected lists the first events after the one asked for, maybe none. -/
def CursorInput.Honest (jsonCreate : JsonCreate) (session : Session) (r : CursorRun) :
    CursorInput → Prop
  | .response body => ∀ rows ∈ responseRows jsonCreate body,
    ∃ listed, listed <+: session.after r.evtid ∧ rows = listed.map SessionEvent.row
  | _ => True

/-- The data of the rows that a response adds to those handed over is what its parsing runs
`process_eventData` on, row by row: this leaves the configuration, the commands and the timestamp. -/
def CursorRun.HandsOver (jsonCreate : JsonCreate) (r : CursorRun) : CursorInput → Prop
  | .response body => ∀ st reply,
    parseEvents libcNull jsonCreate r.config body r.evtid r.timestamp = some (st, reply) →
      ∃ t rows, cursorStep jsonCreate r (.response body) = some t ∧ t.handed = r.handed ++ rows ∧
        t.config = st.config ∧
        processAll jsonCreate r.config r.timestamp (rows.filterMap rowData) =
          some (st.config, st.cmds, st.timestamp)
  | _ => True

/-- The rows handed are the first with data after the initial event, and none comes twice. -/
structure CursorRun.Once (session : Session) (initial : ℤ) (r : CursorRun) : Prop where
  isPrefix : r.handed <+: session.dataAfter initial
  nodup : r.handed.Nodup

/-- The cursor is where the events handed end. -/
def CursorRun.Caught (session : Session) (initial : ℤ) (r : CursorRun) : Prop :=
  ∃ read, session.after initial = read ++ session.after r.evtid ∧
    r.handed = (read.filter SessionEvent.hasData).map SessionEvent.row

lemma eventRow_evtid {capacity : ℤ} {st t : EventsState} {event : SessionEvent}
    (h : eventRow libcNull jsonCreate capacity st event.row = some t) : t.evtid = event.id := by
  obtain ⟨eventstr, hid, h⟩ := Option.bind_eq_some_iff.mp h
  obtain rfl : event.idText = eventstr := Option.some.inj (event.hasID.symm.trans hid)
  rcases hdata : event.row.getPropertyValue "Data".toList with - | data <;>
    simp only [hdata] at h
  · cases h
    rfl
  · obtain ⟨r, -, h⟩ := Option.bind_eq_some_iff.mp h
    split_ifs at h
    cases h
    rfl

lemma eventRows_evtid {capacity : ℤ} {st t : EventsState} {listed : List SessionEvent}
    (h : eventRows libcNull jsonCreate capacity st (listed.map SessionEvent.row) = some t) :
    t.evtid = Cursor.advance SessionEvent.id st.evtid listed := by
  induction listed generalizing st with
  | nil =>
    cases h
    rfl
  | cons event listed ih =>
    obtain ⟨st', hrow, h⟩ := Option.bind_eq_some_iff.mp h
    rw [ih h, eventRow_evtid hrow]
    rfl

/-- A step reads some of the events after the cursor, maybe none. -/
lemma cursorStep_spec {session : Session} {r t : CursorRun} {input : CursorInput}
    (hhonest : input.Honest jsonCreate session r) (h : cursorStep jsonCreate r input = some t) :
    ∃ listed, listed <+: session.after r.evtid ∧
      t.evtid = Cursor.advance SessionEvent.id r.evtid listed ∧
      t.handed = r.handed ++ (listed.filter SessionEvent.hasData).map SessionEvent.row := by
  cases input with
  | failed | write =>
    cases h
    exact ⟨[], List.nil_prefix, rfl, (List.append_nil _).symm⟩
  | response body =>
    obtain ⟨⟨st, reply⟩, hparse, h⟩ := Option.bind_eq_some_iff.mp h
    cases h
    rcases hrows : responseRows jsonCreate body with - | rows
    · rw [parseEvents_rejected hrows] at hparse
      cases hparse
      exact ⟨[], List.nil_prefix, rfl, rfl⟩
    · obtain ⟨listed, hlisted, rfl⟩ := hhonest rows hrows
      obtain ⟨capacity, haccepted⟩ := parseEvents_accepted hrows r.config r.evtid r.timestamp
      rw [haccepted] at hparse
      obtain ⟨st', hst, hparse⟩ := Option.map_eq_some_iff.mp hparse
      cases hparse
      refine ⟨listed, hlisted, eventRows_evtid hst, ?_⟩
      rw [Option.getD_some, List.filter_map]
      rfl

lemma evtid_step {session : Session} {r t : CursorRun} {input : CursorInput}
    (hhonest : input.Honest jsonCreate session r) (h : cursorStep jsonCreate r input = some t) :
    r.evtid ≤ t.evtid := by
  obtain ⟨listed, hlisted, hevtid, -⟩ := cursorStep_spec hhonest h
  rw [hevtid]
  exact Cursor.le_advance session.ascending hlisted

/-- The cursor stays where the events handed end. -/
lemma caught_step {session : Session} {initial : ℤ} {r t : CursorRun} {input : CursorInput}
    (hr : r.Caught session initial) (hhonest : input.Honest jsonCreate session r)
    (h : cursorStep jsonCreate r input = some t) : t.Caught session initial := by
  obtain ⟨read, hread, hhanded⟩ := hr
  obtain ⟨listed, hlisted, hevtid, hnew⟩ := cursorStep_spec hhonest h
  refine ⟨read ++ listed, ?_, ?_⟩
  · calc session.after initial = read ++ session.after r.evtid := hread
      _ = read ++ (listed ++ session.after t.evtid) := by
        rw [hevtid]
        exact congrArg (read ++ ·) (Cursor.after_eq_append session.ascending hlisted)
      _ = read ++ listed ++ session.after t.evtid := (List.append_assoc ..).symm
  · rw [hnew, hhanded, List.filter_append, List.map_append]

lemma handsOver (r : CursorRun) (input : CursorInput) : r.HandsOver jsonCreate input := by
  cases input with
  | failed | write => trivial
  | response body =>
    intro st reply hparse
    refine ⟨_, _, by rw [cursorStep, hparse]; rfl, rfl, rfl, ?_⟩
    rw [← parseEvents_processAll hparse, List.filterMap_filter]
    congr 2
    funext row
    cases rowData row <;> rfl

/-- Two events of a session differ. -/
lemma nodup_dataAfter (session : Session) (initial : ℤ) : (session.dataAfter initial).Nodup := by
  have hid : ∀ a b : SessionEvent, a.row = b.row → a.id = b.id := by
    intro a b hrow
    have htext : some a.idText = some b.idText := by
      rw [← a.hasID, ← b.hasID]
      exact congrArg (Json.getPropertyValue · "ID".toList) hrow
    exact congrArg atoi (Option.some.inj htext)
  have hsub : ((session.after initial).filter SessionEvent.hasData).Sublist session.events :=
    List.filter_sublist.trans List.filter_sublist
  refine List.pairwise_map.mpr ((session.ascending.sublist hsub).imp ?_)
  exact fun {a b} hlt heq => hlt.ne (hid a b heq)

lemma once_of_caught {session : Session} {initial : ℤ} {r : CursorRun}
    (hr : r.Caught session initial) : r.Once session initial := by
  obtain ⟨read, hread, hhanded⟩ := hr
  have hfirst : r.handed <+: session.dataAfter initial := by
    unfold Session.dataAfter
    rw [hread, hhanded, List.filter_append, List.map_append]
    exact List.prefix_append ..
  exact ⟨hfirst, (nodup_dataAfter session initial).sublist hfirst.sublist⟩

/-- **Every event once.** For every session and every sequence of requests, of which any may fail
or be rejected, and of writes of the other threads: if the responses that are not rejected list the
first events after the one asked for, then in every state the rows handed to `process_eventData`
are the first with data after the initial event, in their order, none twice and none left out;
these are the rows whose data `parse_events` runs it on; and `evtid` never decreases. -/
theorem events_once (session : Session) (config : Configuration) (initial timestamp : ℤ)
    {inputs : List CursorInput}
    (hhonest : Along (cursorStep jsonCreate) (fun r input => input.Honest jsonCreate session r)
      ⟨config, initial, timestamp, []⟩ inputs) :
    Always (cursorStep jsonCreate) (CursorRun.Once session initial)
        ⟨config, initial, timestamp, []⟩ inputs ∧
      Along (cursorStep jsonCreate) (CursorRun.HandsOver jsonCreate)
        ⟨config, initial, timestamp, []⟩ inputs ∧
      Along (cursorStep jsonCreate)
        (fun r input => ∀ t, cursorStep jsonCreate r input = some t → r.evtid ≤ t.evtid)
        ⟨config, initial, timestamp, []⟩ inputs := by
  have hstart : CursorRun.Caught session initial ⟨config, initial, timestamp, []⟩ :=
    ⟨[], rfl, rfl⟩
  have hcaught := always_of_along (fun r input t hr hi h => caught_step hr hi h) hstart hhonest
  refine ⟨hcaught.imp fun r hr => once_of_caught hr,
    hhonest.imp fun r input _ _ _ => handsOver r input, hhonest.imp fun r input t _ hi u hu => ?_⟩
  exact evtid_step hi hu

/-- The data of a `close`. -/
def closeData : CString := "\x7b\"Type\":\"close\"\x7d".toList

/-- An event with an ID, and with data if there are any. -/
def sampleEvent (idText : CString) (data : Option CString) : SessionEvent where
  properties := ("ID".toList, .value idText) :: (data.map fun d => ("Data".toList, .value d)).toList
  idText := idText
  hasID := rfl

/-- A session of two events, of which the second has no data. -/
def sampleSession : Session where
  events := [sampleEvent "7".toList (some closeData), sampleEvent "9".toList none]
  ascending := List.pairwise_pair.mpr (by decide)

/-- A response with the first of them. -/
def firstEvent : CString :=
  "\x7b\"total\":1,\"rows\":[\x7b\"ID\":7,\"Data\":".toList ++
    "\"\x7b\\\"Type\\\":\\\"close\\\"\x7d\"\x7d]\x7d".toList

/-- `json_create` on these texts. -/
def eventsJson : JsonCreate := fun text _ =>
  if text = closeData then some (.ofFields [("Type".toList, "close".toList)])
  else if text = firstEvent then
    some (.obj [("total".toList, .value "1".toList),
      ("rows".toList, .arr [(sampleEvent "7".toList (some closeData)).row])])
  else none

/-- A request that fails, one that is answered, and one whose answer is empty. -/
theorem events_once_sample :
    Always (cursorStep eventsJson) (CursorRun.Once sampleSession 5) ⟨defaultOptions, 5, 0, []⟩
        [.failed, .response firstEvent, .response []] ∧
      Along (cursorStep eventsJson) (CursorRun.HandsOver eventsJson) ⟨defaultOptions, 5, 0, []⟩
        [.failed, .response firstEvent, .response []] ∧
      Along (cursorStep eventsJson)
        (fun r input => ∀ t, cursorStep eventsJson r input = some t → r.evtid ≤ t.evtid)
        ⟨defaultOptions, 5, 0, []⟩ [.failed, .response firstEvent, .response []] := by
  have hfirst : responseRows eventsJson firstEvent =
      some [(sampleEvent "7".toList (some closeData)).row] := by
    rfl
  have hempty : responseRows eventsJson [] = none := by
    rfl
  have hhonest : Along (cursorStep eventsJson)
      (fun r input => input.Honest eventsJson sampleSession r) ⟨defaultOptions, 5, 0, []⟩
      [.failed, .response firstEvent, .response []] := by
    rintro r ⟨⟩
    refine ⟨trivial, fun s _ => ⟨fun rows hrows => ?_, fun t _ => ⟨fun rows hrows => ?_, trivial⟩⟩⟩
    · cases hfirst.symm.trans hrows
      exact ⟨[sampleEvent "7".toList (some closeData)], ⟨[sampleEvent "9".toList none], rfl⟩, rfl⟩
    · cases hempty.symm.trans hrows
  exact events_once sampleSession defaultOptions 5 0 hhonest

end SerialChrono
