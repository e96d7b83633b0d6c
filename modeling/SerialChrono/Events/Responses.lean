import SerialChrono.Events.Batches
import SerialChrono.Events.Own
import SerialChrono.Events.TinyJson

/-!
# What a response must contain (`ajax_json.c`)

The server answers with JSON texts, and the functions that read them look properties up by
name.  Some lookups are tested and some are not; an untested one that fails is a use of NULL,
and the functions have no result then.  `Decoder.Complete` says which properties a text must
have for each of the four functions, and `decoder_safe_iff` that they are the ones without which
the function uses a NULL, be it only to print it.

`parse_events` also writes.  It makes room for as many commands as `total` says, and a NULL
behind them, and then stores the commands of the rows; `commands_fit_iff` says that they fit
exactly when `total` is at least the number of rows that call for a command.
-/

namespace SerialChrono

open CText PartialRun Batching

/-! ## The properties an event uses -/

/-- The object has all these properties. -/
def Json.HasAll (rdata : Json) (names : List CString) : Prop :=
  ∀ name ∈ names, (rdata.getPropertyValue name).isSome

/-- The properties that the handling of an event of a type uses without a test. -/
def EventType.used (rdata : Json) : EventType → List CString
  | .init => ["Pru".toList, "Jor".toList]
  | .open => ["Mng".toList, "Tnd".toList]
  | .cronoInt => ["Value".toList]
  | .cronoDat | .datos =>
    ["Flt".toList, "Toc".toList, "Reh".toList, "Eli".toList, "NPr".toList]
  | .llamada =>
    ["Drs".toList, "Dog".toList, "Eqp".toList, "Flt".toList, "Toc".toList, "Reh".toList,
      "Eli".toList] ++
      if rdata.getPropertyValue "Flt".toList = some "-1".toList then [] else ["NPr".toList]
  | .command =>
    "Oper".toList ::
      if rdata.getPropertyValue "Oper".toList = some "8".toList then ["Value".toList] else []
  | .start | .cronoStart | .stop | .cronoStop | .salida | .cronoRec | .cronoReset | .cronoError
  | .cronoReady | .null | .login | .close | .cronoRestart | .aceptar | .cancelar | .info | .user
  | .camera | .reconfig => []

/-- The properties that it does nothing with but print them. -/
def EventType.printed : EventType → List CString
  | .start | .cronoStart | .stop | .cronoStop => ["Value".toList]
  | .llamada => ["Numero".toList]
  | _ => []

/-- The value of a message has a separator. -/
def MessageSplits (type : EventType) (rdata : Json) : Prop :=
  type = .command → rdata.getPropertyValue "Oper".toList = some "8".toList →
    ∀ value ∈ rdata.getPropertyValue "Value".toList, ':' ∈ value

/-- The data of an event has all its handling uses, for the instance with this name; also what is
only printed, if there is no text for a NULL. -/
def EventComplete (null : Option CString) (name : CString) (rdata : Json) : Prop :=
  rdata.getPropertyValue "SessionName".toList ≠ some name →
    ∃ typestr, rdata.getPropertyValue "Type".toList = some typestr ∧
      ∀ type ∈ findEventType typestr, rdata.HasAll (type.used rdata) ∧
        (null = none → rdata.HasAll type.printed ∧ MessageSplits type rdata)

lemma cutAt_isSome_iff {sep : Char} {s : CString} : (cutAt sep s).isSome ↔ sep ∈ s := by
  induction s with
  | nil => simp [cutAt]
  | cons c s ih =>
    by_cases hc : c = sep
    · simp [cutAt, hc]
    · have hne : sep ≠ c := fun h => hc h.symm
      simp [cutAt, hc, hne, ih]

lemma splitMessage_isSome_iff {value : CString} : (splitMessage value).2.isSome ↔ ':' ∈ value := by
  rw [← cutAt_isSome_iff, splitMessage]
  cases cutAt ':' value <;> simp

lemma hasAll_nil (rdata : Json) : rdata.HasAll [] := by simp [Json.HasAll]

lemma hasAll_cons {rdata : Json} {name : CString} {names : List CString} :
    rdata.HasAll (name :: names) ↔
      (rdata.getPropertyValue name).isSome ∧ rdata.HasAll names :=
  List.forall_mem_cons

section

variable {α : Type} {rdata : Json} {P : Prop}

/-- A function that looks a property up is defined if the property is there and what follows
is. -/
lemma isSome_bind_iff {name : CString} {names : List CString} {f : CString → Option α}
    (h : ∀ text, rdata.getPropertyValue name = some text →
      ((f text).isSome ↔ rdata.HasAll names ∧ P)) :
    ((rdata.getPropertyValue name).bind f).isSome ↔ rdata.HasAll (name :: names) ∧ P := by
  rw [hasAll_cons]
  cases hname : rdata.getPropertyValue name with
  | none => simp
  | some text =>
    rw [Option.bind_some, h text hname, Option.isSome_some, and_assoc]
    exact (and_iff_right rfl).symm

lemma isSome_some_iff (a : α) (hP : P) : (some a).isSome ↔ rdata.HasAll [] ∧ P :=
  iff_of_true rfl ⟨hasAll_nil rdata, hP⟩

/-- What prints a pointer is defined if that is not NULL, or there is a text for NULL. -/
lemma isSome_print_iff {null text : Option CString} (f : CString → α) :
    ((printPointer null text).bind fun t => some (f t)).isSome ↔ (null = none → text.isSome) := by
  rw [← printPointer_isSome_iff]
  cases printPointer null text <;> rfl

end

lemma callValues_isSome_iff (null : Option CString) (rdata : Json) :
    (callValues null rdata).isSome ↔ rdata.HasAll (EventType.used rdata .llamada) ∧
      (null = none → rdata.HasAll EventType.llamada.printed) := by
  unfold callValues sentCounters
  simp only [Option.bind_eq_bind, Option.bind_assoc, Option.pure_def, Option.bind_some,
    EventType.used, EventType.printed, List.cons_append, List.nil_append, hasAll_cons,
    and_iff_left (hasAll_nil rdata)]
  simp only [← hasAll_cons]
  refine isSome_bind_iff fun drs _ => isSome_bind_iff fun dog _ => isSome_bind_iff fun eqp _ =>
    isSome_bind_iff fun flt hflt => isSome_bind_iff fun toc _ => isSome_bind_iff fun reh _ =>
      isSome_bind_iff fun eli _ => ?_
  rw [hflt]
  by_cases hminus : flt = "-1".toList
  · have hsent : sentValue flt = none := if_pos hminus
    rw [hsent, if_pos Option.isNone_none, if_pos (congrArg some hminus),
      and_iff_right (hasAll_nil rdata)]
    exact isSome_print_iff _
  · have hsent : sentValue flt = some (atoi flt) := if_neg hminus
    rw [hsent, if_neg (by simp), if_neg fun h => hminus (Option.some.inj h), Option.bind_map]
    refine isSome_bind_iff fun npr _ => ?_
    rw [and_iff_right (hasAll_nil rdata)]
    exact isSome_print_iff _

/-- A message is passed on if it is there, and its separator, or there is a text for NULL. -/
lemma messageUpdate_isSome_iff (null : Option CString) (rdata : Json) :
    (eventUpdate null .command rdata).isSome ↔ rdata.HasAll (EventType.used rdata .command) ∧
      (null = none → rdata.HasAll EventType.command.printed ∧ MessageSplits .command rdata) := by
  have hnothing : rdata.HasAll EventType.command.printed := hasAll_nil rdata
  simp only [hnothing, true_and, eventUpdate, EventType.used, MessageSplits, forall_const,
    Option.bind_eq_bind, Option.pure_def]
  refine isSome_bind_iff fun oper hoper => ?_
  rw [hoper]
  by_cases height : oper = "8".toList
  · rw [if_pos height, if_pos (congrArg some height), forall_prop_of_true (congrArg some height)]
    refine isSome_bind_iff fun value hvalue => ?_
    rw [hvalue, and_iff_right (hasAll_nil rdata), isSome_print_iff, splitMessage_isSome_iff]
    simp
  · have hne : some oper ≠ some "8".toList := fun h => height (Option.some.inj h)
    rw [if_neg height, if_neg hne]
    exact isSome_some_iff _ fun _ h => absurd h hne

/-- An event is handled if it has the properties its type uses, and those it prints, unless there is
a text for NULL. -/
lemma eventUpdate_isSome_iff (null : Option CString) (type : EventType) (rdata : Json) :
    (eventUpdate null type rdata).isSome ↔ rdata.HasAll (type.used rdata) ∧
      (null = none → rdata.HasAll type.printed ∧ MessageSplits type rdata) := by
  by_cases hcommand : type = .command
  · rw [hcommand]
    exact messageUpdate_isSome_iff null rdata
  · have hsplits : MessageSplits type rdata := fun h => absurd h hcommand
    simp only [hsplits, and_true]
    have hnothing : null = none → rdata.HasAll [] := fun _ => hasAll_nil rdata
    cases type with
    | command => exact absurd rfl hcommand
    | init | «open» =>
      exact isSome_bind_iff fun _ _ => isSome_bind_iff fun _ _ => isSome_some_iff _ hnothing
    | start | cronoStart | stop | cronoStop =>
      rw [eventUpdate, valueUpdate, Option.isSome_map, printPointer_isSome_iff, EventType.printed,
        hasAll_cons, and_iff_left (hasAll_nil rdata)]
      exact (and_iff_right (hasAll_nil rdata)).symm
    | cronoInt =>
      rw [eventUpdate, valueUpdate, Option.isSome_map, printPointer_isSome_iff, EventType.used,
        hasAll_cons, and_iff_left (hasAll_nil rdata), forall_prop_of_true rfl]
      exact (and_iff_left hnothing).symm
    | cronoDat | datos =>
      simp only [eventUpdate, sentCounters, Option.bind_eq_bind, Option.bind_assoc,
        Option.pure_def, Option.bind_some]
      exact isSome_bind_iff fun _ _ => isSome_bind_iff fun _ _ => isSome_bind_iff fun _ _ =>
        isSome_bind_iff fun _ _ => isSome_bind_iff fun _ _ => isSome_some_iff _ hnothing
    | llamada =>
      rw [eventUpdate, Option.isSome_map]
      exact callValues_isSome_iff null rdata
    | _ => exact isSome_some_iff _ hnothing

/-- `process_eventData` is defined on the trees that are complete. -/
lemma treeUpdate_isSome_iff (null : Option CString) (name : CString) (rdata : Json) :
    (treeUpdate null name rdata).isSome ↔ EventComplete null name rdata := by
  unfold treeUpdate EventComplete
  by_cases hown : rdata.getPropertyValue "SessionName".toList = some name
  · rw [if_pos hown]
    exact iff_of_true rfl fun h => absurd hown h
  · rw [if_neg hown, forall_prop_of_true hown]
    cases rdata.getPropertyValue "Type".toList with
    | none => simp
    | some typestr =>
      rw [Option.bind_some]
      cases hfind : findEventType typestr with
      | none => exact iff_of_true rfl ⟨typestr, rfl, by simp [hfind]⟩
      | some type =>
        constructor
        · intro h
          refine ⟨typestr, rfl, fun t ht => ?_⟩
          obtain rfl : type = t := Option.some.inj (hfind.symm.trans ht)
          exact (eventUpdate_isSome_iff null type rdata).mp h
        · rintro ⟨_, htype, h⟩
          obtain rfl := Option.some.inj htype
          exact (eventUpdate_isSome_iff null type rdata).mpr (h type hfind)

lemma processEventData_isSome_iff (null : Option CString) (jsonCreate : JsonCreate)
    (config : Configuration) (datastr : CString) (timestamp : ℤ) :
    (processEventData null jsonCreate config datastr timestamp).isSome ↔
      ∃ rdata, jsonCreate datastr 128 = some rdata ∧
        EventComplete null (getSessionName config) rdata := by
  cases hjson : jsonCreate datastr 128 with
  | none => simp [processEventData, hjson]
  | some rdata =>
    rw [processEventData_eq hjson, processEventTree_eq, Option.isSome_map, Option.isSome_map,
      treeUpdate_isSome_iff]
    simp

/-! ## Rows -/

/-- A row has what `parse_events` uses of it: its number, and, if it has data, a complete
event. -/
def RowComplete (null : Option CString) (jsonCreate : JsonCreate) (name : CString) (row : Json) :
    Prop :=
  ∀ properties, row = .obj properties →
    (row.getPropertyValue "ID".toList).isSome ∧
      ∀ data ∈ row.getPropertyValue "Data".toList, ∃ rdata, jsonCreate data 128 = some rdata ∧
        EventComplete null name rdata

lemma rowParse_isSome_iff (null : Option CString) (jsonCreate : JsonCreate) (link : Link)
    (row : Json) :
    (rowParse null jsonCreate link row).isSome ↔
      RowComplete null jsonCreate (getSessionName link.config) row := by
  cases row with
  | arr items => exact iff_of_true rfl (by rintro _ ⟨⟩)
  | value text => exact iff_of_true rfl (by rintro _ ⟨⟩)
  | obj properties =>
    have hrow : RowComplete null jsonCreate (getSessionName link.config) (.obj properties) ↔
        ((Json.obj properties).getPropertyValue "ID".toList).isSome ∧
          ∀ data ∈ (Json.obj properties).getPropertyValue "Data".toList,
            (processEventData null jsonCreate link.config data link.timestamp).isSome := by
      simp only [processEventData_isSome_iff]
      exact ⟨fun h => h _ rfl, fun h _ _ => h⟩
    rw [hrow]
    unfold rowParse
    cases (Json.obj properties).getPropertyValue "ID".toList with
    | none => simp
    | some eventstr =>
      cases (Json.obj properties).getPropertyValue "Data".toList with
      | none => simp
      | some data => simp

/-- Rows are read one after the other if each is complete. -/
lemma parseAll_isSome_iff {null : Option CString} {jsonCreate : JsonCreate} {name : CString}
    {link : Link} (hname : link.Named name) (rows : List Json) :
    (parseAll (rowParse null jsonCreate) link rows).isSome ↔
      ∀ row ∈ rows, RowComplete null jsonCreate name row := by
  induction rows generalizing link with
  | nil => simp [parseAll]
  | cons row rows ih =>
    have hrow := rowParse_isSome_iff null jsonCreate link row
    rw [show getSessionName link.config = name from hname] at hrow
    rw [parseAll_cons, List.forall_mem_cons, ← hrow]
    cases hparse : rowParse null jsonCreate link row with
    | none => simp
    | some r =>
      rw [Option.bind_some, Option.isSome_map, ih (hname.of_rowParse hparse)]
      simp

/-- A row that is handled adds its command, if any. -/
lemma eventRow_eq_some {null : Option CString} {jsonCreate : JsonCreate} {capacity : ℤ}
    {link : Link} {cmds : List CString} {row : Json} {st : EventsState}
    (h : eventRow null jsonCreate capacity (link.withCmds cmds) row = some st) :
    ∃ r, rowParse null jsonCreate link row = some r ∧
      st = r.1.withCmds (cmds ++ r.2.toList) := by
  by_cases hroom : (cmds.length : ℤ) < capacity
  · rw [eventRow_eq null jsonCreate capacity link cmds hroom] at h
    obtain ⟨r, hr, rfl⟩ := Option.map_eq_some_iff.mp h
    exact ⟨r, hr, rfl⟩
  -- without room, only a row that stores nothing is handled
  cases row with
  | arr items | value text =>
    cases h
    exact ⟨(link, none), rfl, by simp [Link.withCmds]⟩
  | obj properties =>
    obtain ⟨eventstr, hid, h⟩ := Option.bind_eq_some_iff.mp h
    unfold rowParse
    dsimp only at h ⊢
    rw [hid, Option.bind_some]
    cases hdata : (Json.obj properties).getPropertyValue "Data".toList with
    | none =>
      rw [hdata] at h
      cases h
      exact ⟨_, rfl, by simp [Link.withCmds]⟩
    | some data =>
      rw [hdata] at h
      obtain ⟨r, -, h⟩ := Option.bind_eq_some_iff.mp h
      cases (if_neg hroom).symm.trans h

/-- The loop collects the commands of the rows. -/
lemma eventRows_eq_some {null : Option CString} {jsonCreate : JsonCreate} {capacity : ℤ}
    {link : Link} {cmds : List CString} {rows : List Json} {st : EventsState}
    (h : eventRows null jsonCreate capacity (link.withCmds cmds) rows = some st) :
    ∃ r, parseAll (rowParse null jsonCreate) link rows = some r ∧
      st = r.1.withCmds (cmds ++ r.2) := by
  induction rows generalizing link cmds with
  | nil =>
    cases h
    exact ⟨(link, []), rfl, by rw [List.append_nil]⟩
  | cons row rows ih =>
    obtain ⟨st₁, hrow, hrows⟩ := Option.bind_eq_some_iff.mp h
    obtain ⟨r₁, hparse, rfl⟩ := eventRow_eq_some hrow
    obtain ⟨r₂, hrest, rfl⟩ := ih hrows
    refine ⟨(r₂.1, r₁.2.toList ++ r₂.2), ?_, by rw [List.append_assoc]⟩
    rw [parseAll_cons, hparse, Option.bind_some, hrest]
    rfl

/-! ## The four functions -/

/-- The rows `parse_connect` goes over: the number of the last event. -/
def connectRows (eventID : ℤ) : List Json → Option ℤ
  | [] => some eventID
  | .obj properties :: rows => do
    let eventstr ← (Json.obj properties).getPropertyValue "ID".toList
    connectRows (atoi eventstr) rows
  | _ :: rows => connectRows eventID rows

/-- `parse_connect`: the number of the last `init` event, 0 if there is none, or -1. -/
def parseConnect (jsonCreate : JsonCreate) (jsonStr : CString) : Option ℤ :=
  match jsonCreate jsonStr 1024 with
  | none => some (-1)
  | some root =>
    match root.getPropertyValue "total".toList with
    | none => some (-1)
    | some total =>
      if total = "0".toList then some 0
      else
        match root.getProperty "rows".toList with
        | some (.arr rows) => connectRows 0 rows
        | _ => some (-1)

/-- The functions that read what the server sends. -/
inductive Decoder
  | select | connect | events | eventData
  deriving DecidableEq, Repr

/-- The function uses no value that is not there, not even to print it.  `parse_events` may still
have no result if the rows have more commands than its array has entries for. -/
def Decoder.Safe (jsonCreate : JsonCreate) (link : Link) (text : CString) : Decoder → Prop
  | .select => (parseSelect jsonCreate link.config text).isSome
  | .connect => (parseConnect jsonCreate text).isSome
  | .events =>
    (parseEvents none jsonCreate link.config text link.evtid link.timestamp).isSome ∨
      ∃ root rows capacity, jsonCreate text (tokenCount text) = some root ∧
        root.getProperty "rows".toList = some (.arr rows) ∧
        (eventRows none jsonCreate capacity (link.withCmds []) rows).isSome
  | .eventData => (processEventData none jsonCreate link.config text link.timestamp).isSome

/-- Each row up to the one of the ring has a name, and that one an id. -/
def SelectComplete (ring : CString) (rows : List Json) : Prop :=
  ∀ before properties after, rows = before ++ .obj properties :: after →
    (∀ row ∈ before, row.getPropertyValue "Nombre".toList ≠ some ring) →
    ((Json.obj properties).getPropertyValue "Nombre".toList).isSome ∧
      ((Json.obj properties).getPropertyValue "Nombre".toList = some ring →
        ((Json.obj properties).getPropertyValue "ID".toList).isSome)

/-- Each row has a number. -/
def ConnectComplete (rows : List Json) : Prop :=
  ∀ properties, .obj properties ∈ rows →
    ((Json.obj properties).getPropertyValue "ID".toList).isSome

/-- The text has what the function uses. -/
def Decoder.Complete (jsonCreate : JsonCreate) (link : Link) (text : CString) : Decoder → Prop
  | .select => ∀ root rows, jsonCreate text 1024 = some root →
    root.getProperty "rows".toList = some (.arr rows) →
      SelectComplete (("Ring ".toList ++ printInt link.config.ring).take 15) rows
  | .connect => ∀ root total rows, jsonCreate text 1024 = some root →
    root.getPropertyValue "total".toList = some total → total ≠ "0".toList →
    root.getProperty "rows".toList = some (.arr rows) → ConnectComplete rows
  | .events => ∀ root total rows, jsonCreate text (tokenCount text) = some root →
    root.getPropertyValue "total".toList = some total → 0 ≤ 1 + atoi total →
    root.getProperty "rows".toList = some (.arr rows) →
      ∀ row ∈ rows, RowComplete none jsonCreate (getSessionName link.config) row
  | .eventData => ∃ rdata, jsonCreate text 128 = some rdata ∧
    EventComplete none (getSessionName link.config) rdata

/-- The first row decides about itself, and about the others unless it is the one of the
ring. -/
lemma selectComplete_cons {ring : CString} {row : Json} {rows : List Json} :
    SelectComplete ring (row :: rows) ↔ SelectComplete ring [row] ∧
      (row.getPropertyValue "Nombre".toList ≠ some ring → SelectComplete ring rows) := by
  constructor
  · intro h
    constructor
    · intro before properties after hrows hbefore
      cases before with
      | nil =>
        obtain ⟨rfl, -⟩ := List.cons_eq_cons.mp hrows
        exact h [] properties rows rfl hbefore
      | cons first before => simp at hrows
    · intro hrow before properties after hrows hbefore
      refine h (row :: before) properties after (by rw [hrows]; rfl) ?_
      rw [List.forall_mem_cons]
      exact ⟨hrow, hbefore⟩
  · rintro ⟨hfirst, hrest⟩ before properties after hrows hbefore
    cases before with
    | nil =>
      obtain ⟨rfl, -⟩ := List.cons_eq_cons.mp hrows
      exact hfirst [] properties [] rfl hbefore
    | cons first before =>
      obtain ⟨rfl, htail⟩ := List.cons_eq_cons.mp hrows
      rw [List.forall_mem_cons] at hbefore
      exact hrest hbefore.1 before properties after htail hbefore.2

/-- A single row is complete if, being an object, it has a name, and an id with the name of the
ring. -/
lemma selectComplete_singleton {ring : CString} {row : Json} :
    SelectComplete ring [row] ↔ ∀ properties, row = .obj properties →
      (row.getPropertyValue "Nombre".toList).isSome ∧
        (row.getPropertyValue "Nombre".toList = some ring →
          (row.getPropertyValue "ID".toList).isSome) := by
  constructor
  · rintro h properties rfl
    exact h [] properties [] rfl (by simp)
  · intro h before properties after hrows hbefore
    cases before with
    | nil =>
      obtain ⟨rfl, -⟩ := List.cons_eq_cons.mp hrows
      exact h properties rfl
    | cons first before => simp at hrows

lemma selectRow_isSome_iff (ring : CString) (rows : List Json) :
    (selectRow ring rows).isSome ↔ SelectComplete ring rows := by
  induction rows with
  | nil => exact iff_of_true rfl fun before properties after h => by simp at h
  | cons row rows ih =>
    rw [selectComplete_cons, selectComplete_singleton]
    cases row with
    | arr items | value text =>
      have hnone : ∀ row : Json, row.getPropertyValue "Nombre".toList = none →
          row.getPropertyValue "Nombre".toList ≠ some ring := by
        intro row h
        rw [h]
        exact (Option.some_ne_none ring).symm
      rw [forall_prop_of_true (hnone _ rfl), ← ih]
      exact (and_iff_right (by rintro _ ⟨⟩)).symm
    | obj properties =>
      have hfirst : ∀ P : Json → Prop, (∀ ps, Json.obj properties = .obj ps → P (.obj properties)) ↔
          P (.obj properties) := fun P => ⟨fun h => h _ rfl, fun h _ _ => h⟩
      rw [selectRow, hfirst fun row => (row.getPropertyValue "Nombre".toList).isSome ∧
        (row.getPropertyValue "Nombre".toList = some ring →
          (row.getPropertyValue "ID".toList).isSome)]
      cases (Json.obj properties).getPropertyValue "Nombre".toList with
      | none => simp
      | some ringNumber =>
        by_cases hring : ringNumber = ring
        · simp [hring]
        · simp [hring, ih]

lemma connectRows_isSome_iff (eventID : ℤ) (rows : List Json) :
    (connectRows eventID rows).isSome ↔ ConnectComplete rows := by
  induction rows generalizing eventID with
  | nil => exact iff_of_true rfl fun _ h => absurd h List.not_mem_nil
  | cons row rows ih =>
    cases row with
    | arr items | value text => simp [connectRows, ih, ConnectComplete]
    | obj properties =>
      rw [connectRows]
      cases hid : (Json.obj properties).getPropertyValue "ID".toList with
      | none =>
        refine iff_of_false (by simp) fun h => ?_
        have := h properties List.mem_cons_self
        rw [hid] at this
        cases this
      | some eventstr =>
        simp only [Option.bind_eq_bind, Option.bind_some, ih, ConnectComplete, List.mem_cons]
        constructor
        · rintro h ps (heq | hmem)
          · rw [heq, hid]
            rfl
          · exact h ps hmem
        · exact fun h ps hmem => h ps (.inr hmem)

/-- The loop of `parse_events` is defined, with room enough, if each row is complete. -/
lemma exists_eventRows_iff (null : Option CString) (jsonCreate : JsonCreate) (link : Link)
    (rows : List Json) :
    (∃ capacity, (eventRows null jsonCreate capacity (link.withCmds []) rows).isSome) ↔
      ∀ row ∈ rows, RowComplete null jsonCreate (getSessionName link.config) row := by
  have hname : link.Named (getSessionName link.config) := rfl
  rw [← parseAll_isSome_iff hname]
  constructor
  · rintro ⟨capacity, h⟩
    obtain ⟨st, hst⟩ := Option.isSome_iff_exists.mp h
    obtain ⟨r, hr, -⟩ := eventRows_eq_some hst
    rw [hr]
    rfl
  · intro h
    refine ⟨rows.length + 1, ?_⟩
    rw [eventRows_eq null jsonCreate _ link [] rows (by simp), Option.isSome_map]
    exact h

/-- A list of sessions without rows is an error. -/
lemma parseSelect_isSome_of_rejected {jsonCreate : JsonCreate} {config : Configuration}
    {jsonStr : CString}
    (h : ¬ ∃ root rows, jsonCreate jsonStr 1024 = some root ∧
      root.getProperty "rows".toList = some (.arr rows)) :
    (parseSelect jsonCreate config jsonStr).isSome := by
  unfold parseSelect
  split
  · rfl
  · next root hroot =>
    split
    · next rows hrows => exact absurd ⟨root, rows, hroot, hrows⟩ h
    · rfl

/-- An answer to the connection without rows is an error, or says that there are none. -/
lemma parseConnect_isSome_of_rejected {jsonCreate : JsonCreate} {jsonStr : CString}
    (h : ¬ ∃ root total rows, jsonCreate jsonStr 1024 = some root ∧
      root.getPropertyValue "total".toList = some total ∧ total ≠ "0".toList ∧
      root.getProperty "rows".toList = some (.arr rows)) :
    (parseConnect jsonCreate jsonStr).isSome := by
  unfold parseConnect
  split
  · rfl
  · next root hroot =>
    split
    · rfl
    · next total htotal =>
      split
      · rfl
      · next hzero =>
        split
        · next rows hrows => exact absurd ⟨root, total, rows, hroot, htotal, hzero, hrows⟩ h
        · rfl

/-- `parse_events` on a response that it does not turn down. -/
lemma parseEvents_rows {null : Option CString} {jsonCreate : JsonCreate}
    {config : Configuration} {jsonStr total : CString} {evtid timestamp : ℤ} {root : Json}
    {rows : List Json}
    (hroot : jsonCreate jsonStr (tokenCount jsonStr) = some root)
    (htotal : root.getPropertyValue "total".toList = some total)
    (hrows : root.getProperty "rows".toList = some (.arr rows)) (hcalloc : 0 ≤ 1 + atoi total) :
    parseEvents null jsonCreate config jsonStr evtid timestamp =
      (eventRows null jsonCreate (1 + atoi total) (Link.withCmds ⟨config, evtid, timestamp⟩ [])
        rows).map fun st => (st, .commands st.cmds (1 + atoi total)) := by
  unfold tokenCount at hroot
  rw [parseEvents, hroot]
  simp only [parseEventsTree, htotal, hrows, if_neg (not_lt.mpr hcalloc), Option.map_eq_bind]
  rfl

/-- Any other response is an error. -/
lemma parseEvents_isSome_of_rejected {null : Option CString} {jsonCreate : JsonCreate}
    {config : Configuration} {jsonStr : CString} {evtid timestamp : ℤ}
    (h : ¬ ∃ root total rows, jsonCreate jsonStr (tokenCount jsonStr) = some root ∧
      root.getPropertyValue "total".toList = some total ∧ 0 ≤ 1 + atoi total ∧
      root.getProperty "rows".toList = some (.arr rows)) :
    (parseEvents null jsonCreate config jsonStr evtid timestamp).isSome := by
  unfold tokenCount at h
  unfold parseEvents parseEventsTree
  split
  · rfl
  · next root hroot =>
    split
    · rfl
    · next total htotal =>
      split
      · next rows hrows =>
        dsimp only
        split
        · rfl
        · next hcalloc =>
          exact absurd ⟨root, total, rows, hroot, htotal, not_lt.mp hcalloc, hrows⟩ h
      · rfl

/-- **What the decoders need.** A decoder uses no value that is not there if and only if the
text has all the properties the decoder looks up without a test. -/
theorem decoder_safe_iff (jsonCreate : JsonCreate) (link : Link) (text : CString) (d : Decoder) :
    d.Safe jsonCreate link text ↔ d.Complete jsonCreate link text := by
  cases d with
  | select =>
    by_cases hread : ∃ root rows, jsonCreate text 1024 = some root ∧
        root.getProperty "rows".toList = some (.arr rows)
    · obtain ⟨root, rows, hroot, hrows⟩ := hread
      simp only [Decoder.Safe, Decoder.Complete, parseSelect, hroot, hrows, selectRow_isSome_iff]
      constructor
      · rintro h _ rows' ⟨⟩ hrows'
        cases hrows.symm.trans hrows'
        exact h
      · exact fun h => h root rows rfl hrows
    · exact iff_of_true (parseSelect_isSome_of_rejected hread)
        fun root rows hroot hrows => absurd ⟨root, rows, hroot, hrows⟩ hread
  | connect =>
    by_cases hread : ∃ root total rows, jsonCreate text 1024 = some root ∧
        root.getPropertyValue "total".toList = some total ∧ total ≠ "0".toList ∧
        root.getProperty "rows".toList = some (.arr rows)
    · obtain ⟨root, total, rows, hroot, htotal, hzero, hrows⟩ := hread
      simp only [Decoder.Safe, Decoder.Complete, parseConnect, hroot, htotal, hrows,
        if_neg hzero, connectRows_isSome_iff]
      constructor
      · rintro h _ total' rows' ⟨⟩ - - hrows'
        cases hrows.symm.trans hrows'
        exact h
      · exact fun h => h root total rows rfl htotal hzero hrows
    · exact iff_of_true (parseConnect_isSome_of_rejected hread)
        fun root total rows hroot htotal hzero hrows =>
          absurd ⟨root, total, rows, hroot, htotal, hzero, hrows⟩ hread
  | events =>
    simp only [Decoder.Safe, Decoder.Complete]
    constructor
    · rintro h root total rows hroot htotal hcalloc hrows
      rw [← exists_eventRows_iff none jsonCreate link]
      rcases h with h | ⟨root', rows', capacity, hroot', hrows', h⟩
      · rw [parseEvents_rows hroot htotal hrows hcalloc, Option.isSome_map] at h
        exact ⟨_, h⟩
      · obtain rfl : root = root' := Option.some.inj (hroot.symm.trans hroot')
        obtain rfl : rows = rows' := by
          have := hrows.symm.trans hrows'
          simpa using this
        exact ⟨capacity, h⟩
    · intro h
      by_cases haccepted : ∃ root total rows, jsonCreate text (tokenCount text) = some root ∧
          root.getPropertyValue "total".toList = some total ∧ 0 ≤ 1 + atoi total ∧
          root.getProperty "rows".toList = some (.arr rows)
      · obtain ⟨root, total, rows, hroot, htotal, hcalloc, hrows⟩ := haccepted
        obtain ⟨capacity, hread⟩ := (exists_eventRows_iff none jsonCreate link rows).mpr
          (h root total rows hroot htotal hcalloc hrows)
        exact .inr ⟨root, rows, capacity, hroot, hrows, hread⟩
      · exact .inl (parseEvents_isSome_of_rejected haccepted)
  | eventData => exact processEventData_isSome_iff none jsonCreate link.config text link.timestamp

/-- A list of sessions with one that has no name. -/
theorem decoder_not_safe :
    ¬ ∀ (link : Link) (text : CString) (d : Decoder),
      (∃ qty, (TinyJson.jsonCreate text qty).isSome) →
        d.Safe TinyJson.jsonCreate link text := by
  intro h
  have hunsafe : (parseSelect TinyJson.jsonCreate startLink.config
      "\x7b\"rows\":[\x7b\x7d]\x7d".toList).isSome = false := by decide +kernel
  have hvalid : (TinyJson.jsonCreate "\x7b\"rows\":[\x7b\x7d]\x7d".toList 1024).isSome = true := by
    decide +kernel
  have hsafe := h startLink _ .select ⟨1024, hvalid⟩
  rw [Decoder.Safe, hunsafe] at hsafe
  cases hsafe

/-! ## The array of commands -/

/-- An event of this type calls for a command. -/
def EventType.givesCommand (rdata : Json) : EventType → Bool
  | .salida | .start | .cronoStart | .cronoInt | .stop | .cronoStop | .cronoRec | .cronoDat
  | .datos | .cronoReset | .cronoError | .cronoReady | .llamada => true
  | .command => decide (rdata.getPropertyValue "Oper".toList = some "8".toList)
  | .null | .init | .login | .open | .close | .cronoRestart | .aceptar | .cancelar | .info
  | .user | .camera | .reconfig => false

/-- The event in a tree calls for a command, for the instance with this session name. -/
def eventGivesCommand (name : CString) (rdata : Json) : Bool :=
  decide (rdata.getPropertyValue "SessionName".toList ≠ some name) &&
    match (rdata.getPropertyValue "Type".toList).bind findEventType with
    | some type => type.givesCommand rdata
    | none => false

/-- A row calls for a command. -/
def rowGivesCommand (jsonCreate : JsonCreate) (name : CString) : Json → Bool
  | .obj properties =>
    match (Json.obj properties).getPropertyValue "Data".toList with
    | some data =>
      match jsonCreate data 128 with
      | some rdata => eventGivesCommand name rdata
      | none => false
    | none => false
  | _ => false

lemma eventUpdate_command {null : Option CString} {type : EventType} {rdata : Json} {u : Update}
    (hu : eventUpdate null type rdata = some u) : u.command.isSome = type.givesCommand rdata := by
  cases type with
  | start | cronoStart | cronoInt | stop | cronoStop =>
    obtain ⟨value, -, rfl⟩ := Option.map_eq_some_iff.mp hu
    rfl
  | llamada =>
    obtain ⟨call, -, rfl⟩ := Option.map_eq_some_iff.mp hu
    rfl
  | cronoDat | datos | init | «open» =>
    obtain ⟨x, -, hu⟩ := Option.bind_eq_some_iff.mp hu
    obtain ⟨y, -, hu⟩ := Option.bind_eq_some_iff.mp hu
    cases hu
    rfl
  | command =>
    obtain ⟨oper, hoper, hu⟩ := Option.bind_eq_some_iff.mp hu
    rw [EventType.givesCommand, hoper]
    by_cases height : oper = "8".toList
    · rw [if_pos height] at hu
      obtain ⟨secs, -, hu⟩ := Option.bind_eq_some_iff.mp hu
      obtain ⟨cut, -, hu⟩ := Option.bind_eq_some_iff.mp hu
      cases hu
      exact (decide_eq_true (congrArg some height)).symm
    · rw [if_neg height] at hu
      cases hu
      exact (decide_eq_false fun h => height (Option.some.inj h)).symm
  | _ =>
    cases hu
    rfl

lemma treeUpdate_command {null : Option CString} {name : CString} {rdata : Json} {u : Update}
    (hu : treeUpdate null name rdata = some u) :
    u.command.isSome = eventGivesCommand name rdata := by
  unfold treeUpdate at hu
  unfold eventGivesCommand
  by_cases hown : rdata.getPropertyValue "SessionName".toList = some name
  · rw [if_pos hown] at hu
    cases hu
    rw [decide_eq_false (not_not_intro hown), Bool.false_and]
    rfl
  · rw [if_neg hown] at hu
    obtain ⟨typestr, htype, hu⟩ := Option.bind_eq_some_iff.mp hu
    rw [decide_eq_true hown, Bool.true_and, htype, Option.bind_some]
    cases hfind : findEventType typestr with
    | none =>
      rw [hfind] at hu
      cases hu
      rfl
    | some type =>
      rw [hfind] at hu
      exact eventUpdate_command hu

/-- A row that is read gives a command if it calls for one. -/
lemma rowParse_command {null : Option CString} {jsonCreate : JsonCreate} {link : Link}
    {row : Json} {r : Link × Option CString} (h : rowParse null jsonCreate link row = some r) :
    r.2.isSome = rowGivesCommand jsonCreate (getSessionName link.config) row := by
  rw [rowParse_eq] at h
  obtain ⟨e, he, rfl⟩ := Option.map_eq_some_iff.mp h
  have hcmd : (e.cmd link.config.status).isSome = e.update.command.isSome := by
    unfold RowEvent.cmd
    cases hcommand : e.update.command with
    | none => simp [Update.text, hcommand]
    | some c => simp [take_text_ne_nil hcommand link.config.status]
  rw [hcmd]
  cases row with
  | arr items | value text =>
    cases he
    rfl
  | obj properties =>
    obtain ⟨eventstr, -, he⟩ := Option.bind_eq_some_iff.mp he
    rw [rowGivesCommand]
    cases hdata : (Json.obj properties).getPropertyValue "Data".toList with
    | none =>
      rw [hdata] at he
      cases he
      rfl
    | some data =>
      rw [hdata] at he
      obtain ⟨rdata, hjson, he⟩ := Option.bind_eq_some_iff.mp he
      obtain ⟨u, hu, rfl⟩ := Option.map_eq_some_iff.mp he
      rw [treeUpdate_command hu]
      simp only [hjson]

/-- The rows that `parse_events` reads, up to any of them, call for at most this many commands. -/
def RowsCall (jsonCreate : JsonCreate) (name : CString) (rows : List Json) (total : ℤ) : Prop :=
  ∀ before, before <+: rows → (∀ row ∈ before, RowComplete libcNull jsonCreate name row) →
    before.countP (rowGivesCommand jsonCreate name) ≤ total

/-- The first row takes an entry if it calls for a command. -/
lemma rowsCall_cons {jsonCreate : JsonCreate} {name : CString} {row : Json} {rows : List Json}
    {total : ℤ} :
    RowsCall jsonCreate name (row :: rows) total ↔ 0 ≤ total ∧
      (RowComplete libcNull jsonCreate name row →
        RowsCall jsonCreate name rows
          (total - if rowGivesCommand jsonCreate name row then 1 else 0)) := by
  constructor
  · intro h
    refine ⟨h [] List.nil_prefix (List.forall_mem_nil _), fun hrow before hbefore hread => ?_⟩
    have hall := h (row :: before) (List.cons_prefix_cons.mpr ⟨rfl, hbefore⟩)
      (List.forall_mem_cons.mpr ⟨hrow, hread⟩)
    rw [List.countP_cons] at hall
    push_cast at hall
    omega
  · rintro ⟨hzero, hrest⟩ before hbefore hread
    cases before with
    | nil => exact hzero
    | cons first before =>
      obtain ⟨rfl, htail⟩ := List.cons_prefix_cons.mp hbefore
      obtain ⟨hfirst, hread⟩ := List.forall_mem_cons.mp hread
      have hall := hrest hfirst before htail hread
      rw [List.countP_cons]
      push_cast
      omega

/-- The commands and the NULL fit all along the loop exactly if the rows it reads call for no more
than there is room for. -/
lemma always_fits_iff (jsonCreate : JsonCreate) {name : CString} (capacity : ℤ) {link : Link}
    (hname : link.Named name) (cmds : List CString) (rows : List Json) :
    Always (eventRow libcNull jsonCreate capacity) (fun st => (st.cmds.length + 1 : ℤ) ≤ capacity)
        (link.withCmds cmds) rows ↔
      RowsCall jsonCreate name rows (capacity - 1 - cmds.length) := by
  induction rows generalizing link cmds with
  | nil =>
    have hroom : ((cmds.length : ℤ) + 1 ≤ capacity) ↔ 0 ≤ capacity - 1 - cmds.length := by omega
    refine hroom.trans ⟨fun h before hbefore _ => ?_, fun h => h [] List.nil_prefix (by simp)⟩
    rw [List.prefix_nil.mp hbefore]
    exact h
  | cons row rows ih =>
    have hroom : ((cmds.length : ℤ) + 1 ≤ capacity) ↔ 0 ≤ capacity - 1 - cmds.length := by omega
    rw [rowsCall_cons]
    refine (and_congr_left' hroom).trans (and_congr_right fun hpos => ?_)
    have hcomplete := rowParse_isSome_iff libcNull jsonCreate link row
    rw [show getSessionName link.config = name from hname] at hcomplete
    rw [← hcomplete, eventRow_eq libcNull jsonCreate capacity link cmds (by omega)]
    cases hparse : rowParse libcNull jsonCreate link row with
    | none => exact iff_of_true (by simp) (by simp)
    | some r =>
      have hrow := rowParse_command hparse
      rw [show getSessionName link.config = name from hname] at hrow
      have hlength : (capacity - 1 - cmds.length : ℤ) -
          (if rowGivesCommand jsonCreate name row then 1 else 0) =
            capacity - 1 - (cmds ++ r.2.toList).length := by
        rw [← hrow, List.length_append]
        cases r.2 with
        | none => simp
        | some cmd =>
          simp only [Option.isSome_some, if_true, Option.toList_some, List.length_singleton]
          push_cast
          omega
      rw [Option.isSome_some, forall_prop_of_true rfl, hlength,
        ← ih (hname.of_rowParse hparse) (cmds ++ r.2.toList)]
      simp

lemma eventRows_eq_run (null : Option CString) (jsonCreate : JsonCreate) (capacity : ℤ)
    (st : EventsState) (rows : List Json) :
    eventRows null jsonCreate capacity st rows =
      run (eventRow null jsonCreate capacity) st rows := by
  induction rows generalizing st with
  | nil => rfl
  | cons row rows ih =>
    rw [eventRows, run_cons]
    simp only [ih, Option.bind_eq_bind]

/-- The commands in the array that `parse_events` returns and the NULL behind them fit in it. -/
def EventsReply.Fits : EventsReply → Prop
  | .error => True
  | .commands cmds capacity => (cmds.length + 1 : ℤ) ≤ capacity

instance (reply : EventsReply) : Decidable reply.Fits := by
  cases reply <;> unfold EventsReply.Fits <;> infer_instance

/-- **When the commands fit.** For a response that `parse_events` accepts, the commands it has
stored and the NULL behind them fit in the array after each row, and in the one it returns, if and
only if `total` is at least the number of rows read that call for a command. -/
theorem commands_fit_iff (jsonCreate : JsonCreate) (config : Configuration)
    (jsonStr total : CString) (evtid timestamp : ℤ) (root : Json) (rows : List Json)
    (hroot : jsonCreate jsonStr (tokenCount jsonStr) = some root)
    (htotal : root.getPropertyValue "total".toList = some total)
    (hrows : root.getProperty "rows".toList = some (.arr rows)) (hcalloc : 0 ≤ 1 + atoi total) :
    (Always (eventRow libcNull jsonCreate (1 + atoi total))
        (fun st => (st.cmds.length + 1 : ℤ) ≤ 1 + atoi total) ⟨config, evtid, timestamp, []⟩ rows ∧
      ∀ r ∈ parseEvents libcNull jsonCreate config jsonStr evtid timestamp, r.2.Fits) ↔
      RowsCall jsonCreate (getSessionName config) rows (atoi total) := by
  set link : Link := ⟨config, evtid, timestamp⟩
  have hname : link.Named (getSessionName config) := rfl
  have hfits := always_fits_iff jsonCreate (1 + atoi total) hname [] rows
  rw [show (1 + atoi total - 1 - ([] : List CString).length : ℤ) = atoi total by simp] at hfits
  rw [← hfits]
  refine and_iff_left_of_imp fun halways r hparse => ?_
  rw [parseEvents_rows hroot htotal hrows hcalloc, eventRows_eq_run] at hparse
  obtain ⟨st, hrun, rfl⟩ := Option.map_eq_some_iff.mp hparse
  exact halways.of_run hrun

/-- A response with this number in `total` and rows of texts. -/
def rowsResponse (total : CString) (rows : List (List (CString × CString))) : Json :=
  .obj [("total".toList, .value total), ("rows".toList, .arr (rows.map .ofFields))]

/-- The text of the response. -/
def rowsText (total : CString) (rows : List (List (CString × CString))) : CString :=
  TinyJson.printJson (rowsResponse total rows)

lemma writable_rowsResponse {total : CString} {rows : List (List (CString × CString))}
    (htotal : TinyJson.plainFields [("total".toList, total)] = true)
    (hrows : rows.all TinyJson.plainFields = true) :
    TinyJson.Writable (rowsResponse total rows) := by
  have hitems : ∀ j ∈ rows.map Json.ofFields, TinyJson.Writable j :=
    List.forall_mem_map.mpr fun fields hfields =>
      TinyJson.writable_ofFields (List.all_eq_true.mp hrows fields hfields)
  have hrowsName : TinyJson.WritableText "rows".toList := by simp [TinyJson.WritableText]
  obtain ⟨hname, hvalue⟩ := TinyJson.of_writable_obj (TinyJson.writable_ofFields htotal)
  exact .obj (List.forall_mem_cons.mpr ⟨hname _ List.mem_cons_self,
      List.forall_mem_singleton.mpr hrowsName⟩)
    (List.forall_mem_cons.mpr ⟨hvalue _ List.mem_cons_self,
      List.forall_mem_singleton.mpr (.arr hitems)⟩)

/-- The response is read back from its text. -/
lemma jsonCreate_rowsText {total : CString} {rows : List (List (CString × CString))}
    (htotal : TinyJson.plainFields [("total".toList, total)] = true)
    (hrows : rows.all TinyJson.plainFields = true) :
    TinyJson.jsonCreate (rowsText total rows) (tokenCount (rowsText total rows)) =
      some (rowsResponse total rows) := by
  have hprint := (TinyJson.create_print (writable_rowsResponse htotal hrows) []).2
  rw [List.append_nil] at hprint
  have hitems : ∀ j ∈ rows.map Json.ofFields, TinyJson.BlocksInArrays j :=
    List.forall_mem_map.mpr fun fields _ => TinyJson.blocksInArrays_ofFields fields
  refine hprint (.obj (List.forall_mem_cons.mpr ⟨.value total, List.forall_mem_singleton.mpr
    (.arr hitems (List.forall_mem_map.mpr fun fields _ text h => ?_))⟩))
  cases h

/-- The fields of an event with this number and these data. -/
def eventFields (id : CString) (data : List (CString × CString)) : List (CString × CString) :=
  [("ID".toList, id), ("Data".toList, fieldsText data)]

/-- A start without a value, which becomes `start (null)`, a login and a reset. -/
def threeRows : List (List (CString × CString)) :=
  [eventFields "1".toList [("Type".toList, "crono_start".toList)],
    eventFields "2".toList [("Type".toList, "login".toList)],
    eventFields "3".toList [("Type".toList, "crono_reset".toList)]]

/-- Two of the three rows call for a command, and two are announced. -/
theorem commands_fit_three :
    Always (eventRow libcNull TinyJson.jsonCreate (1 + atoi "2".toList))
        (fun st => (st.cmds.length + 1 : ℤ) ≤ 1 + atoi "2".toList) ⟨defaultOptions, 0, 0, []⟩
        (threeRows.map .ofFields) ∧
      ∀ r ∈ parseEvents libcNull TinyJson.jsonCreate defaultOptions
        (rowsText "2".toList threeRows) 0 0, r.2.Fits := by
  have hroot : TinyJson.jsonCreate (rowsText "2".toList threeRows)
      (tokenCount (rowsText "2".toList threeRows)) = some (rowsResponse "2".toList threeRows) :=
    jsonCreate_rowsText (by decide) (by decide)
  refine (commands_fit_iff _ _ _ _ _ _ _ _ hroot rfl rfl (by decide)).mpr fun before hbefore _ => ?_
  have hcount : (threeRows.map Json.ofFields).countP
      (rowGivesCommand TinyJson.jsonCreate (getSessionName defaultOptions)) = 2 := by
    decide +kernel
  have hle := hbefore.sublist.countP_le
    (p := rowGivesCommand TinyJson.jsonCreate (getSessionName defaultOptions))
  rw [hcount] at hle
  exact Nat.cast_le.mpr hle

/-- One event where none is announced leaves no room for the NULL. -/
theorem commands_overflow :
    ¬ ∀ (config : Configuration) (jsonStr total : CString) (evtid timestamp : ℤ) (root : Json)
        (rows : List Json),
      TinyJson.jsonCreate jsonStr (tokenCount jsonStr) = some root →
      root.getPropertyValue "total".toList = some total →
      root.getProperty "rows".toList = some (.arr rows) → 0 ≤ 1 + atoi total →
      Always (eventRow libcNull TinyJson.jsonCreate (1 + atoi total))
          (fun st => (st.cmds.length + 1 : ℤ) ≤ 1 + atoi total) ⟨config, evtid, timestamp, []⟩
          rows ∧
        ∀ r ∈ parseEvents libcNull TinyJson.jsonCreate config jsonStr evtid timestamp,
          r.2.Fits := by
  intro h
  let rows := [eventFields "1".toList [("Type".toList, "crono_reset".toList)]]
  have hroot : TinyJson.jsonCreate (rowsText "0".toList rows)
      (tokenCount (rowsText "0".toList rows)) = some (rowsResponse "0".toList rows) :=
    jsonCreate_rowsText (by decide) (by decide)
  obtain ⟨-, hreturned⟩ := h defaultOptions _ _ 0 0 _ _ hroot rfl rfl (by decide)
  have hparse : ((parseEvents libcNull TinyJson.jsonCreate defaultOptions
      (rowsText "0".toList rows) 0 0).map fun r => decide r.2.Fits) = some false := by
    decide +kernel
  obtain ⟨r, hr, hfits⟩ := Option.map_eq_some_iff.mp hparse
  exact of_decide_eq_false hfits (hreturned r hr)

end SerialChrono
