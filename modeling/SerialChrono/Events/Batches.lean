import SerialChrono.MainSpec
import SerialChrono.Events.Line
import SerialChrono.Events.JsonPrint

/-!
# Events that share a response

An event that calls for a command has it executed after the whole response has been parsed.
The events parsed in between must neither read a counter that the command changes nor set one to
another value than the command does; `Update.Disturbed` says when one of them does.
`deliver_eq_deliverEach` says that where no event disturbs a later one a response has the meaning of
its events delivered one by one, and `batch_changes_meaning` is a response in which one does.
-/

namespace SerialChrono

open CText Batching

/-! ## The effect of the command of an event -/

/-- What the command of an event parsed in this status does later. -/
def Update.effect (u : Update) (s : Status) : Option (Status → Status) :=
  u.command.bind fun c =>
    let args := restTokens (sentRest c (u.rest s))
    if args.length ≤ 30 then commandEffect c args else none

/-- The commands of events. -/
def Command.fromEvent : Command → Bool
  | .fault | .refusal | .elim | .bright => false
  | _ => true

lemma eventUpdate_fromEvent {null : Option CString} {type : EventType} {rdata : Json} {u : Update}
    {c : Command} (hu : eventUpdate null type rdata = some u) (hc : u.command = some c) :
    c.fromEvent = true := by
  have hvalue : ∀ (nil : Option CString) (d : Command), d.fromEvent = true →
      valueUpdate nil d rdata = some u → c.fromEvent = true := by
    intro nil d hd h
    obtain ⟨valuestr, -, rfl⟩ := Option.map_eq_some_iff.mp h
    cases hc
    exact hd
  cases type with
  | start | cronoStart | cronoInt | stop | cronoStop => exact hvalue _ _ rfl hu
  | llamada =>
    obtain ⟨call, -, rfl⟩ := Option.map_eq_some_iff.mp hu
    cases hc
    rfl
  | command =>
    obtain ⟨oper, -, hu⟩ := Option.bind_eq_some_iff.mp hu
    split at hu
    · obtain ⟨secs, -, hu⟩ := Option.bind_eq_some_iff.mp hu
      obtain ⟨p, -, hu⟩ := Option.bind_eq_some_iff.mp hu
      cases hu
      cases hc
      rfl
    · cases hu
      cases hc
  | cronoDat | datos =>
    obtain ⟨v, -, hu⟩ := Option.bind_eq_some_iff.mp hu
    obtain ⟨npr, -, hu⟩ := Option.bind_eq_some_iff.mp hu
    cases hu
    cases hc
    rfl
  | init | «open» =>
    obtain ⟨x, -, hu⟩ := Option.bind_eq_some_iff.mp hu
    obtain ⟨y, -, hu⟩ := Option.bind_eq_some_iff.mp hu
    cases hu
    cases hc
  | _ =>
    cases hu
    cases hc <;> rfl

lemma treeUpdate_fromEvent {null : Option CString} {name : CString} {rdata : Json} {u : Update}
    {c : Command} (hu : treeUpdate null name rdata = some u) (hc : u.command = some c) :
    c.fromEvent = true := by
  unfold treeUpdate at hu
  split at hu
  · cases hu
    cases hc
  · obtain ⟨typestr, -, hu⟩ := Option.bind_eq_some_iff.mp hu
    split at hu
    · exact eventUpdate_fromEvent hu hc
    · cases hu
      cases hc

/-- The command of an event changes only the status. -/
lemma execCommand_eq {u : Update} {c : Command} (hc : u.command = some c)
    (hfrom : c.fromEvent = true) (s : Status) (link : Link) :
    execCommand link ((u.text s).take 255) = (u.effect s).map fun f =>
      { link with config := { link.config with status := f link.config.status } } := by
  have hbright : c ≠ .bright := by
    rintro rfl
    cases hfrom
  have hline := parseLine_update hc s
  unfold execCommand Update.effect
  rw [if_neg (take_text_ne_nil hc s), hc, Option.bind_some]
  by_cases hlen : (restTokens (sentRest c (u.rest s))).length ≤ 30
  · rw [if_pos hlen] at hline
    have hconfig := mainFront_config link.config hbright hline
    simp only [hlen, if_true]
    calc (mainFront link.config _).map (fun front => { link with config := front.config })
        = ((mainFront link.config _).map Front.config).map
            fun config => { link with config := config } := by
          rw [Option.map_map]
          rfl
      _ = _ := by
          rw [hconfig, Option.map_map]
          rfl
  · rw [if_neg hlen] at hline
    simp [hlen, mainFront_none hline]

/-! ## Pending commands -/

/-- A command pending while the event `later` is parsed, in the status `s`, gets in its way.
`before` is the status when the command is executed first, and `after` when it is executed once the
event has been parsed. -/
def Update.Disturbed (later : Update) (s before after : Status) : Prop :=
  match later with
  | .nothing | .order _ _ => False
  -- a counter that the event keeps is changed
  | .dog v =>
    (v.faults = none ∧ before.faults ≠ s.faults) ∨ (v.touchs = none ∧ before.touchs ≠ s.touchs) ∨
      (v.refusals = none ∧ before.refusals ≠ s.refusals) ∨
      (v.eliminated = none ∧ before.eliminated ≠ s.eliminated)
  -- something is left in what the event sets to zero
  | .init _ _ | .open _ _ =>
    after.numero ≠ 0 ∨ after.faults ≠ 0 ∨ after.refusals ≠ 0 ∨ after.eliminated ≠ 0
  -- a counter gets another value than the event sends, or keeps
  | .call c =>
    c.sent.faults.getD before.faults ≠ after.faults ∨
      c.sent.touchs.getD before.touchs ≠ after.touchs ∨
      c.sent.refusals.getD before.refusals ≠ after.refusals ∨
      c.sent.eliminated.getD before.eliminated ≠ after.eliminated ∨
      c.notpresent.getD before.notpresent ≠ after.notpresent

instance (later : Update) (s before after : Status) :
    Decidable (later.Disturbed s before after) := by
  cases later <;> unfold Update.Disturbed <;> infer_instance

/-- Only the counters in `datos` and `crono_dat` depend on the status. -/
lemma Update.text_congr {u : Update} {s t : Status}
    (h : ∀ v, u = .dog v → v.dataArg t = v.dataArg s) : u.text t = u.text s := by
  cases u with
  | dog v =>
    simp only [Update.text, Update.command, Update.rest]
    rw [h v rfl]
  | order c args => cases args <;> rfl
  | _ => rfl

/-- In the status `s` it does not matter whether that is changed by `f` before or after the event
is parsed. -/
def Update.CommutesWith (later : Update) (f : Status → Status) (s : Status) : Prop :=
  later.apply (f s) = f (later.apply s) ∧ later.text (f s) = later.text s

lemma Update.apply_startTime (u : Update) (s : Status) :
    (u.apply s).startTime = s.startTime := by
  cases u <;> rfl

lemma commutesWith_id (later : Update) (s : Status) : later.CommutesWith id s := ⟨rfl, rfl⟩

lemma commutesWith_start (later : Update) (t : ℤ) (s : Status) :
    later.CommutesWith (fun s => { s with startTime := t }) s := by
  refine ⟨?_, Update.text_congr fun v _ => rfl⟩
  cases later <;> rfl

lemma commutesWith_int (later : Update) (t : Option ℤ) (s : Status) :
    later.CommutesWith (fun s =>
      if s.startTime < 0 then s else { s with intTime := t.getD s.intTime }) s := by
  refine ⟨?_, Update.text_congr fun v _ => ?_⟩
  · dsimp only
    rw [later.apply_startTime]
    split
    · rfl
    · cases later <;> rfl
  · dsimp only
    split <;> rfl

lemma commutesWith_stop (later : Update) (t : Option ℤ) (s : Status) :
    later.CommutesWith (fun s =>
      if s.startTime < 0 then s else { s with stopTime := t.getD s.stopTime }) s := by
  refine ⟨?_, Update.text_congr fun v _ => ?_⟩
  · dsimp only
    rw [later.apply_startTime]
    split
    · rfl
    · cases later <;> rfl
  · dsimp only
    split <;> rfl

/-- An event whose kept counters stay gives the same command. -/
lemma dataArg_eq_of_not_disturbed {v : Sent} {s before after : Status}
    (hfree : ¬ (Update.dog v).Disturbed s before after) : v.dataArg before = v.dataArg s := by
  simp only [Update.Disturbed, not_or, not_and, not_not] at hfree
  obtain ⟨hf, ht, hr, he⟩ := hfree
  have hkept : ∀ {sent : Option ℤ} {new old : ℤ}, (sent = none → new = old) →
      sent.getD new = sent.getD old := by
    intro sent new old h
    cases sent with
    | none => exact h rfl
    | some n => rfl
  simp only [Sent.dataArg, hkept hf, hkept ht, hkept hr, hkept he]

section

variable {later : Update} {s : Status} {f : Status → Status}
  (hfree : ¬ later.Disturbed s (f s) (f (later.apply s)))

include hfree

/-- A change of the status commutes with an event it does not disturb, if it does so outside what
the event sets. -/
lemma commutesWith_of_not_disturbed
    (hinit : ∀ p j, later = .init p j → later.apply (f s) = f (later.apply s))
    (hopen : ∀ m t, later = .open m t → later.apply (f s) = f (later.apply s))
    (hcall : ∀ c, later = .call c → later.apply (f s) = f (later.apply s)) :
    later.CommutesWith f s := by
  cases later with
  | nothing | order _ _ => exact ⟨rfl, Update.text_congr fun v h => by cases h⟩
  | dog v =>
    refine ⟨rfl, Update.text_congr fun w h => ?_⟩
    cases h
    exact dataArg_eq_of_not_disturbed hfree
  | init p j => exact ⟨hinit p j rfl, Update.text_congr fun v h => by cases h⟩
  | «open» m t => exact ⟨hopen m t rfl, Update.text_congr fun v h => by cases h⟩
  | call c => exact ⟨hcall c rfl, Update.text_congr fun v h => by cases h⟩

end

lemma commutesWith_turn {later : Update} {arg : CountArg} {s : Status}
    (hfree : ¬ later.Disturbed s (countEffect .turn arg s)
      (countEffect .turn arg (later.apply s))) :
    later.CommutesWith (countEffect .turn arg) s := by
  refine commutesWith_of_not_disturbed hfree ?_ ?_ fun c _ => ?_
  · rintro p j rfl
    simp only [Update.Disturbed, not_or, not_not] at hfree
    have hnumero := hfree.1
    simp_all [Update.apply, Status.clearDog, countEffect]
  · rintro m t rfl
    simp only [Update.Disturbed, not_or, not_not] at hfree
    simp_all [Update.apply, Status.clearDog, countEffect]
  · subst later
    rfl

lemma commutesWith_data {later : Update} {d : DataArg} {s : Status}
    (hfree : ¬ later.Disturbed s (d.apply s) (d.apply (later.apply s))) :
    later.CommutesWith d.apply s := by
  refine commutesWith_of_not_disturbed hfree ?_ ?_ ?_
  · rintro p j rfl
    simp only [Update.Disturbed, not_or, not_not] at hfree
    simp_all [Update.apply, Status.clearDog, DataArg.apply]
  · rintro m t rfl
    simp only [Update.Disturbed, not_or, not_not] at hfree
    simp_all [Update.apply, Status.clearDog, DataArg.apply]
  · rintro c rfl
    simp only [Update.Disturbed, not_or, not_not] at hfree
    simp_all [Update.apply, Call.apply, DataArg.apply]

lemma commutesWith_reset {later : Update} {s : Status}
    (hfree : ¬ later.Disturbed s s.reset (later.apply s).reset) :
    later.CommutesWith Status.reset s := by
  refine commutesWith_of_not_disturbed hfree ?_ ?_ ?_
  · rintro p j rfl
    rfl
  · rintro m t rfl
    rfl
  · rintro c rfl
    simp only [Update.Disturbed, not_or, not_not] at hfree
    simp_all [Update.apply, Call.apply, Status.reset]

/-- The command of an event commutes with a later event it does not disturb. -/
lemma commutesWith_effect {first later : Update} {c : Command} (hc : first.command = some c)
    (hfrom : c.fromEvent = true) {s₀ s : Status} {f : Status → Status}
    (hf : first.effect s₀ = some f)
    (hfree : ¬ later.Disturbed s (f s) (f (later.apply s))) : later.CommutesWith f s := by
  unfold Update.effect at hf
  rw [hc, Option.bind_some] at hf
  dsimp only at hf
  split at hf
  case isFalse => cases hf
  case isTrue =>
    generalize restTokens (sentRest c (first.rest s₀)) = rest at hf
    cases c with
    | start =>
      cases hf
      exact commutesWith_start later _ s
    | int =>
      cases hf
      exact commutesWith_int later _ s
    | stop =>
      cases hf
      exact commutesWith_stop later _ s
    | turn =>
      cases hf
      exact commutesWith_turn hfree
    | data =>
      unfold commandEffect at hf
      dsimp only at hf
      split at hf
      · cases hf
        exact commutesWith_id later s
      · obtain ⟨d, -, rfl⟩ := Option.map_eq_some_iff.mp hf
        exact commutesWith_data hfree
    | reset =>
      cases hf
      exact commutesWith_reset hfree
    | fault | refusal | elim | bright => cases hfrom
    | _ =>
      cases hf
      exact commutesWith_id later s

/-! ## Rows -/

/-- What a row of a response says. -/
structure RowEvent where
  evtid : Option ℤ
  timestamp : Option ℤ
  update : Update
  deriving DecidableEq

/-- The row as the instance with this session name reads it. -/
def rowEvent (null : Option CString) (jsonCreate : JsonCreate) (name : CString) (row : Json) :
    Option RowEvent :=
  match row with
  | .obj _ => (row.getPropertyValue "ID".toList).bind fun eventstr =>
    match row.getPropertyValue "Data".toList with
    | none => some ⟨some (atoi eventstr), none, .nothing⟩
    | some data => (jsonCreate data 128).bind fun rdata =>
      (treeUpdate null name rdata).map fun u =>
        ⟨some (atoi eventstr), (rdata.getPropertyValue "TimeStamp".toList).map atol, u⟩
  | _ => some ⟨none, none, .nothing⟩

/-- The link after the parsing of a row. -/
def RowEvent.apply (r : RowEvent) (link : Link) : Link where
  config := { link.config with status := r.update.apply link.config.status }
  evtid := r.evtid.getD link.evtid
  timestamp := r.timestamp.getD link.timestamp

/-- The command of a row. -/
def RowEvent.cmd (r : RowEvent) (s : Status) : Option CString :=
  let result := (r.update.text s).take 255
  if result = [] then none else some result

lemma rowParse_eq (null : Option CString) (jsonCreate : JsonCreate) (link : Link) (row : Json) :
    rowParse null jsonCreate link row =
      (rowEvent null jsonCreate (getSessionName link.config) row).map fun r =>
        (r.apply link, r.cmd link.config.status) := by
  cases row with
  | arr items => rfl
  | value text => rfl
  | obj properties =>
    unfold rowParse rowEvent
    dsimp only
    cases (Json.obj properties).getPropertyValue "ID".toList with
    | none => rfl
    | some eventstr =>
      rw [Option.bind_some, Option.bind_some]
      cases (Json.obj properties).getPropertyValue "Data".toList with
      | none => rfl
      | some data =>
        simp only [processEventData, processEventTree_eq, Option.bind_eq_bind, Option.pure_def]
        cases jsonCreate data 128 with
        | none => rfl
        | some rdata =>
          simp only [Option.bind_some]
          cases treeUpdate null (getSessionName link.config) rdata with
          | none => rfl
          | some u =>
            simp only [Option.map_some, Option.bind_some, RowEvent.apply, RowEvent.cmd,
              eventTimestamp]
            cases rdata.getPropertyValue "TimeStamp".toList <;> rfl

/-- The command is pending while the row is parsed, and gets in its way. -/
def RowDisturbed (jsonCreate : JsonCreate) (link : Link) (cmd : CString) (row : Json) : Prop :=
  ∃ r ∈ rowEvent libcNull jsonCreate (getSessionName link.config) row,
    ∃ before ∈ execCommand link cmd, ∃ after ∈ execCommand (r.apply link) cmd,
      r.update.Disturbed link.config.status before.config.status after.config.status

instance (jsonCreate : JsonCreate) (link : Link) (cmd : CString) (row : Json) :
    Decidable (RowDisturbed jsonCreate link cmd row) := by
  unfold RowDisturbed
  infer_instance

lemma rowEvent_fromEvent {null : Option CString} {jsonCreate : JsonCreate} {name : CString}
    {row : Json} {r : RowEvent} {c : Command} (hr : rowEvent null jsonCreate name row = some r)
    (hc : r.update.command = some c) : c.fromEvent = true := by
  cases row with
  | arr items | value text =>
    cases hr
    cases hc
  | obj properties =>
    obtain ⟨eventstr, -, hr⟩ := Option.bind_eq_some_iff.mp hr
    split at hr
    · cases hr
      cases hc
    · obtain ⟨rdata, -, hr⟩ := Option.bind_eq_some_iff.mp hr
      obtain ⟨u, hu, rfl⟩ := Option.map_eq_some_iff.mp hr
      exact treeUpdate_fromEvent hu hc

/-- The invariant of a delivery: the session has this name. -/
def Link.Named (name : CString) (link : Link) : Prop := getSessionName link.config = name

lemma getSessionName_apply (r : RowEvent) (link : Link) :
    getSessionName (r.apply link).config = getSessionName link.config := by
  refine Configuration.SameSession.getSessionName_eq ⟨?_, rfl⟩
  exact r.update.apply_sessionID link.config.status

lemma Link.Named.of_rowParse {null : Option CString} {jsonCreate : JsonCreate} {name : CString}
    {link : Link} {row : Json} {r : Link × Option CString} (hname : link.Named name)
    (h : rowParse null jsonCreate link row = some r) : r.1.Named name := by
  rw [rowParse_eq] at h
  obtain ⟨e, -, rfl⟩ := Option.map_eq_some_iff.mp h
  exact (getSessionName_apply e link).trans hname

lemma getSessionName_exec {link link' : Link} {cmd : CString}
    (h : execCommand link cmd = some link') :
    getSessionName link'.config = getSessionName link.config := by
  unfold execCommand at h
  split at h
  · cases h
    rfl
  · obtain ⟨front, hfront, rfl⟩ := Option.map_eq_some_iff.mp h
    exact getSessionName_front hfront

/-- A row with a command names it. -/
lemma RowEvent.cmd_eq_some {r : RowEvent} {s : Status} {cmd : CString} (h : r.cmd s = some cmd) :
    cmd = (r.update.text s).take 255 ∧ ∃ c, r.update.command = some c := by
  unfold RowEvent.cmd at h
  dsimp only at h
  split at h
  · cases h
  · next hne =>
    cases h
    refine ⟨rfl, ?_⟩
    cases hc : r.update.command with
    | none => simp [Update.text, hc] at hne
    | some c => exact ⟨c, rfl⟩

/-- A command that an event gives. -/
def FromEvent (cmd : CString) : Prop :=
  ∃ (u : Update) (c : Command) (s : Status), u.command = some c ∧ c.fromEvent = true ∧
    cmd = (u.text s).take 255

lemma fromEvent_of_rowParse {jsonCreate : JsonCreate} {link link' : Link} {row : Json}
    {cmd : CString} (h : rowParse libcNull jsonCreate link row = some (link', some cmd)) :
    FromEvent cmd := by
  rw [rowParse_eq] at h
  obtain ⟨r, hr, hcmd⟩ := Option.map_eq_some_iff.mp h
  obtain ⟨hcmd, c, hc⟩ := RowEvent.cmd_eq_some (Prod.ext_iff.mp hcmd).2
  exact ⟨r.update, c, link.config.status, hc, rowEvent_fromEvent hr hc, hcmd⟩

/-- A pending command commutes with a row it does not disturb. -/
lemma rows_commute {jsonCreate : JsonCreate} {link : Link} {cmd : CString} {row : Json}
    (hcmd : FromEvent cmd) (hfree : ¬ RowDisturbed jsonCreate link cmd row) :
    Commutes (rowParse libcNull jsonCreate) execCommand link cmd row := by
  obtain ⟨u, c, s, hc, hfrom, rfl⟩ := hcmd
  have hexec := execCommand_eq hc hfrom s
  unfold Commutes
  cases hr : rowEvent libcNull jsonCreate (getSessionName link.config) row with
  | none =>
    -- the row is never parsed
    have hnone : ∀ t : Link, getSessionName t.config = getSessionName link.config →
        rowParse libcNull jsonCreate t row = none := by
      intro t ht
      rw [rowParse_eq, ht, hr, Option.map_none]
    rw [hnone link rfl, Option.bind_none, Option.bind_eq_none_iff]
    exact fun t ht => hnone t (getSessionName_exec ht)
  | some r =>
    have hsome : ∀ t : Link, getSessionName t.config = getSessionName link.config →
        rowParse libcNull jsonCreate t row = some (r.apply t, r.cmd t.config.status) := by
      intro t ht
      rw [rowParse_eq, ht, hr, Option.map_some]
    rw [hsome link rfl, Option.bind_some, hexec, hexec]
    cases hf : u.effect s with
    | none => rfl
    | some f =>
      have hbefore := hexec link
      have hafter := hexec (r.apply link)
      rw [hf, Option.map_some] at hbefore hafter
      have hdisturbed : ¬ r.update.Disturbed link.config.status (f link.config.status)
          (f (r.update.apply link.config.status)) :=
        fun h => hfree ⟨r, hr, _, hbefore, _, hafter, h⟩
      obtain ⟨happly, htext⟩ := commutesWith_effect hc hfrom hf hdisturbed
      rw [Option.map_some, Option.bind_some, hsome _ (getSessionName_exec hbefore)]
      simp only [RowEvent.apply, RowEvent.cmd, happly, htext, Option.map_some]

/-- **Batches.** Where no event of a response gets in the way of a later one while its command is
pending, the response has the meaning of its events delivered one by one. -/
theorem deliver_eq_deliverEach (jsonCreate : JsonCreate) (link : Link) (rows : List Json)
    (hlen : rows.length < 2 ^ 31)
    (hfree : EachPending (rowParse libcNull jsonCreate) execCommand
      (fun l cmd row => ¬ RowDisturbed jsonCreate l cmd row) link rows) :
    deliver jsonCreate link rows = deliverEach jsonCreate link rows := by
  rw [deliver_eq_batched jsonCreate link hlen, deliverEach_eq_stepwise]
  exact batched_eq_stepwise (fun _ _ _ _ h => fromEvent_of_rowParse h)
    (fun _ _ _ hcmd hrow => rows_commute hcmd hrow) hfree

/-! ### A batch in which an event disturbs a later one, and one without -/

/-- A row of a response with this data. -/
def dataRow (id data : CString) : Json :=
  .ofFields [("ID".toList, id), ("Data".toList, data)]

/-- The text of an object with these fields. -/
def fieldsText (fields : List (CString × CString)) : CString :=
  TinyJson.printJson (.ofFields fields)

/-- The data of a `crono_reset`. -/
def resetData : CString := fieldsText [("Type".toList, "crono_reset".toList)]

/-- The data of the call of the fifth dog of a round, with these faults. -/
def callData (flt : CString) : CString :=
  fieldsText [("Type".toList, "llamada".toList), ("Drs".toList, "12".toList),
    ("Dog".toList, "7".toList), ("Eqp".toList, "1".toList), ("Flt".toList, flt),
    ("Toc".toList, "0".toList), ("Reh".toList, "0".toList), ("Eli".toList, "0".toList),
    ("NPr".toList, "0".toList), ("Numero".toList, "5".toList)]

/-- The data of a `datos` that sends the faults, and one text for all else. -/
def datosData (flt other : CString) : CString :=
  fieldsText [("Type".toList, "datos".toList), ("Flt".toList, flt), ("Toc".toList, other),
    ("Reh".toList, other), ("Eli".toList, other), ("NPr".toList, other)]

/-- The data of an `init`. -/
def initData : CString :=
  fieldsText [("Type".toList, "init".toList), ("Pru".toList, "40".toList),
    ("Jor".toList, "52".toList)]

/-- The link when the event loop begins. -/
def startLink : Link := ⟨defaultOptions, 0, 0⟩

/-- In one response with the reset before it, a call loses its three faults: they are set while
the response is parsed, and the reset is executed after that. -/
theorem batch_changes_meaning :
    ¬ ∀ (link : Link) (rows : List Json),
      (deliver TinyJson.jsonCreate link rows).map (fun l => l.config.status) =
        (deliverEach TinyJson.jsonCreate link rows).map fun l => l.config.status := by
  intro h
  have := h startLink [dataRow "1".toList resetData, dataRow "2".toList (callData "3".toList)]
  revert this
  decide +kernel

/-- Data of zeros before a new trial, then two changes of the faults alone, and a reset. -/
def sampleBatch : List Json :=
  [dataRow "1".toList (datosData "0".toList "0".toList), dataRow "2".toList initData,
    dataRow "3".toList (datosData "1".toList "-1".toList),
    dataRow "4".toList (datosData "2".toList "-1".toList), dataRow "5".toList resetData]

/-- These events can share a response. -/
theorem sampleBatch_eq_each :
    deliver TinyJson.jsonCreate startLink sampleBatch =
      deliverEach TinyJson.jsonCreate startLink sampleBatch :=
  deliver_eq_deliverEach TinyJson.jsonCreate startLink sampleBatch (by decide) (by decide +kernel)

end SerialChrono
