import SerialChrono.MainLoop
import SerialChrono.Events.Decode
import SerialChrono.Library.Batching

/-!
# The event loop (`ajax_mgr.c`)

The ajax thread asks for events, parses the whole response, and then sends the commands to the
main loop one at a time, waiting for each answer.  `deliver` is one response from the parsing
of its rows to the execution of its last command, and is `Batching.batched` of the two halves
of handling one event, `rowParse` and `execCommand` (`deliver_eq_batched`).

Only the main thread's own handlers change the status here: the handlers of the manager threads
either return at once for a command from `ac_server` or do not write to it.
-/

namespace SerialChrono

open CText Batching

/-- The variables of the event loop, and the configuration. -/
structure Link where
  config : Configuration
  evtid : ℤ
  timestamp : ℤ

/-- The request the thread sends for a command: 1023 characters at most, up to a newline. -/
def ajaxRequest (cmd : CString) : CString :=
  ((scAjaxsrv ++ ' ' :: cmd).take 1023).takeWhile (· ≠ '\n')

/-- The execution of a command by the main loop. -/
def execCommand (link : Link) (cmd : CString) : Option Link :=
  if cmd = [] then some link
  else (mainFront link.config (ajaxRequest cmd)).map fun front =>
    { link with config := front.config }

/-- One response.  The loop over the commands looks for the NULL after the last one. -/
def deliverTree (jsonCreate : JsonCreate) (link : Link) (root : Json) : Option Link := do
  let (st, reply) ← parseEventsTree libcNull jsonCreate link.config root
    link.evtid link.timestamp
  let link : Link := ⟨st.config, st.evtid, st.timestamp⟩
  match reply with
  | .error => return link
  | .commands cmds capacity =>
    if cmds.length < capacity then execAll execCommand link cmds else none

/-- The response the server gives with these rows. -/
def eventsResponse (rows : List Json) : Json :=
  .obj [("total".toList, .value (printNat rows.length)), ("rows".toList, .arr rows)]

/-- The delivery of a list of events in one response. -/
def deliver (jsonCreate : JsonCreate) (link : Link) (rows : List Json) : Option Link :=
  deliverTree jsonCreate link (eventsResponse rows)

/-- The delivery of a list of events, each in a response of its own. -/
def deliverEach (jsonCreate : JsonCreate) (link : Link) : List Json → Option Link
  | [] => some link
  | row :: rows => do
    let link ← deliver jsonCreate link [row]
    deliverEach jsonCreate link rows

/-! ## The two halves of handling an event -/

/-- The parsing of one row. -/
def rowParse (null : Option CString) (jsonCreate : JsonCreate) (link : Link) (row : Json) :
    Option (Link × Option CString) :=
  match row with
  | .obj _ => (row.getPropertyValue "ID".toList).bind fun eventstr =>
    match row.getPropertyValue "Data".toList with
    | none => some ({ link with evtid := atoi eventstr }, none)
    | some data => (processEventData null jsonCreate link.config data link.timestamp).map fun r =>
      (⟨r.1, atoi eventstr, r.2.2⟩, r.2.1)
  | _ => some (link, none)

/-- The state of the loop over the rows after some commands. -/
def Link.withCmds (link : Link) (cmds : List CString) : EventsState :=
  ⟨link.config, link.evtid, link.timestamp, cmds⟩

/-- While the array has room, a row adds its command, if any. -/
lemma eventRow_eq (null : Option CString) (jsonCreate : JsonCreate) (capacity : ℤ) (link : Link)
    (cmds : List CString) (hroom : cmds.length < capacity) (row : Json) :
    eventRow null jsonCreate capacity (link.withCmds cmds) row =
      (rowParse null jsonCreate link row).map fun r => r.1.withCmds (cmds ++ r.2.toList) := by
  cases row with
  | obj properties =>
    simp only [eventRow, rowParse, Link.withCmds, Option.bind_eq_bind]
    cases (Json.obj properties).getPropertyValue "ID".toList with
    | none => rfl
    | some eventstr =>
      simp only [Option.bind_some]
      cases (Json.obj properties).getPropertyValue "Data".toList with
      | none => simp
      | some data =>
        simp only [hroom, if_true]
        cases processEventData null jsonCreate link.config data link.timestamp <;> rfl
  | arr items => simp [eventRow, rowParse, Link.withCmds]
  | value text => simp [eventRow, rowParse, Link.withCmds]

/-- The loop over the rows parses them all, if the array has an entry for each. -/
lemma eventRows_eq (null : Option CString) (jsonCreate : JsonCreate) (capacity : ℤ) (link : Link)
    (cmds : List CString) (rows : List Json) (hroom : cmds.length + rows.length < capacity) :
    eventRows null jsonCreate capacity (link.withCmds cmds) rows =
      (parseAll (rowParse null jsonCreate) link rows).map fun r => r.1.withCmds (cmds ++ r.2) := by
  induction rows generalizing link cmds with
  | nil => simp [eventRows, parseAll]
  | cons row rows ih =>
    have hrow := eventRow_eq null jsonCreate capacity link cmds
      (by rw [List.length_cons] at hroom; omega) row
    rw [eventRows, hrow, parseAll_cons]
    cases rowParse null jsonCreate link row with
    | none => rfl
    | some r =>
      have hone : r.2.toList.length ≤ 1 := by cases r.2 <;> simp
      have hnext := ih r.1 (cmds ++ r.2.toList) (by
        rw [List.length_append]
        rw [List.length_cons] at hroom
        push_cast at hroom ⊢
        omega)
      simp only [Option.map_some, Option.bind_eq_bind, Option.bind_some, hnext, Option.map_map,
        Function.comp_def, List.append_assoc]

/-- There are at most as many commands as rows. -/
lemma length_parseAll_le {null : Option CString} {jsonCreate : JsonCreate} {link : Link}
    {rows : List Json} {r : Link × List CString}
    (h : parseAll (rowParse null jsonCreate) link rows = some r) :
    r.2.length ≤ rows.length := by
  induction rows generalizing link r with
  | nil =>
    cases h
    simp
  | cons row rows ih =>
    obtain ⟨r₁, -, h⟩ := Option.bind_eq_some_iff.mp h
    obtain ⟨r₂, hr₂, rfl⟩ := Option.map_eq_some_iff.mp h
    have hone : r₁.2.toList.length ≤ 1 := by cases r₁.2 <;> simp
    have := ih hr₂
    simp only [List.length_append, List.length_cons]
    omega

/-- A response with as many rows as an `int` can count parses all of them and then executes
their commands. -/
lemma deliver_eq_batched (jsonCreate : JsonCreate) (link : Link) {rows : List Json}
    (hlen : rows.length < 2 ^ 31) :
    deliver jsonCreate link rows = batched (rowParse libcNull jsonCreate) execCommand link rows := by
  have htotal : atoi (printNat rows.length) = rows.length := by
    rw [← printInt_natCast]
    exact atoi_printInt (by omega) (by omega)
  have hrows := eventRows_eq libcNull jsonCreate (1 + rows.length) link [] rows (by simp)
  simp only [Link.withCmds, List.nil_append] at hrows
  have hcapacity : ¬ 1 + (rows.length : ℤ) < 0 := by omega
  have hget : (eventsResponse rows).getPropertyValue "total".toList =
      some (printNat rows.length) := rfl
  have hgetRows : (eventsResponse rows).getProperty "rows".toList = some (.arr rows) := rfl
  simp only [deliver, deliverTree, parseEventsTree, hget, hgetRows, htotal, hcapacity, if_false,
    hrows, Option.bind_eq_bind, Option.bind_assoc, Option.bind_map, batched]
  cases hparse : parseAll (rowParse libcNull jsonCreate) link rows with
  | none => rfl
  | some r =>
    have hfits : (r.2.length : ℤ) < 1 + rows.length := by
      have := length_parseAll_le hparse
      omega
    simp [hfits]

lemma deliverEach_eq_stepwise (jsonCreate : JsonCreate) (link : Link) (rows : List Json) :
    deliverEach jsonCreate link rows =
      stepwise (rowParse libcNull jsonCreate) execCommand link rows := by
  induction rows generalizing link with
  | nil => rfl
  | cons row rows ih =>
    have hone : [row].length < 2 ^ 31 := by simp
    simp only [deliverEach, stepwise, deliver_eq_batched jsonCreate link hone, ih,
      Option.bind_eq_bind]

end SerialChrono
