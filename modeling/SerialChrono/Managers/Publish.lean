import SerialChrono.MainSpec
import SerialChrono.Events.Line
import SerialChrono.Managers.Agreement
import Mathlib.Data.Nat.Digits.Defs

/-!
# Commands published to AgilityContest and read back

What the ajax manager publishes comes back to the other instances as an event, through a server
that relays the parameters of the request as properties of the event (`Relay`).  The tables
that encode a command as an event (`ajax_mgr.c`) and decode an event as a command
(`ajax_json.c`) are two, and they are not the inverse of each other: `ok` is sent as the event
for a failure, a countdown always comes back with 15 seconds, a negative number as a huge one,
and a counter of -1 as the order to keep the old value.  `roundTrip_iff` says for which commands
the two agree.
-/

namespace SerialChrono

open CText

/-! ## The server -/

/-- The parameters that are relayed under their own name. -/
def relayedNames : List CString :=
  ["SessionName".toList, "Type".toList, "Value".toList, "Oper".toList, "start".toList]

/-- The parameters that are relayed under another name. -/
def relayedCounters : List (CString × CString) :=
  [("Faltas".toList, "Flt".toList), ("Tocados".toList, "Toc".toList),
    ("Rehuses".toList, "Reh".toList), ("Eliminado".toList, "Eli".toList),
    ("Nopresentado".toList, "NPr".toList)]

/-- The server, by the data of the event it makes of the parameters of a request. -/
structure Relay where
  data : List Param → Json
  same {name : CString} (hname : name ∈ relayedNames) {params : List Param} {v : CString} :
    params.lookup name = some v → (data params).getPropertyValue name = some v
  renamed {sent received : CString} (hnames : (sent, received) ∈ relayedCounters)
    {params : List Param} {v : CString} :
    params.lookup sent = some v → (data params).getPropertyValue received = some v

/-! ## The commands that are published -/

def Command.published : Command → Bool
  | .start | .int | .stop | .fail | .ok | .walk | .down | .reset
  | .fault | .refusal | .elim | .data => true
  | _ => false

/-- The command an event made of this one should come back as. -/
def Command.relayedAs : Command → Command
  | .fault | .refusal | .elim => .data
  | c => c

/-- The timestamp of a `start`, `int` or `stop`. -/
def timeArg (args : Tokens) : ℤ := (args.head?.map strtol).getD 0

/-- The counters of the status are each an `int`. -/
structure Status.IntCounters (s : Status) : Prop where
  faults : IsInt s.faults
  touchs : IsInt s.touchs
  refusals : IsInt s.refusals
  eliminated : IsInt s.eliminated

/-- Main has accepted a command of another source than the server, and hands it over to the
ajax manager. -/
structure HandedOver (config : Configuration) (buffer : CString) (c : Command)
    (source : CString) (args : Tokens) (config' : Configuration) : Prop where
  accepted : mainFront config buffer = some (.dispatch c (source :: c.cmd :: args) config')
  published : c.published = true
  foreign : source ≠ scAjaxsrv
  counters : config'.status.IntCounters

/-- The arguments of a `data` command give the totals of this status. -/
def SameTotals (s : Status) (args : Tokens) : Prop :=
  ∃ a, args = [a] ∧ ∃ d ∈ parseDataArg a,
    d.faults = s.faults + s.touchs ∧ d.refusals = s.refusals ∧ d.eliminated = s.eliminated

/-- The arguments `args'` that come back are those of the command: its number, one above for a
timestamp, or the totals of the counters. -/
def SameArgs (c : Command) (s : Status) (args args' : Tokens) : Prop :=
  match c with
  | .start | .int | .stop => ∃ a, args' = [a] ∧ strtol a = timeArg args + 1
  | .walk => ∃ a, args' = [a] ∧ strtol a = onlyArg strtol 420 args
  | .down => ∃ a, args' = [a] ∧ strtol a = onlyArg strtol 15 args
  | .fault | .refusal | .elim | .data => SameTotals s args'
  | _ => args' = []

/-- An instance makes of an event the command `c` with arguments that satisfy `P`. -/
def DecodesTo (config : Configuration) (rdata : Json) (c : Command) (P : Tokens → Prop) : Prop :=
  ∃ config' text args, processEventTree libcNull config rdata = some (config', some text) ∧
    parseLine (ajaxRequest text) = some (.command c (scAjaxsrv :: c.cmd :: args)) ∧ P args

/-- The event a datagram is published as comes back to every other instance as the same
command. -/
def RoundTrip (relay : Relay) (now : ℤ) (config : Configuration) (buffer : CString) : Prop :=
  ∀ c source args config', HandedOver config buffer c source args config' →
    ∀ handler e, ajaxMgrEntries c = some handler →
      handler config' (source :: c.cmd :: args) (source :: c.cmd :: args).length =
        some (.putEvent e) →
      ∀ receiver, getSessionName receiver ≠ getSessionName config' →
        DecodesTo receiver (relay.data (e.params now)) c.relayedAs
          (SameArgs c config'.status args)

/-- The commands both tables are right about. -/
def KeepsMeaning (c : Command) (s : Status) (args : Tokens) : Prop :=
  match c with
  | .ok => False
  | .start | .int | .stop => -1 ≤ timeArg args ∧ timeArg args < longMax
  | .walk => 0 ≤ onlyArg strtol 420 args
  | .down => onlyArg strtol 15 args = 15
  | .fault | .refusal | .elim | .data =>
    s.faults ≠ -1 ∧ s.touchs ≠ -1 ∧ s.refusals ≠ -1 ∧ s.eliminated ≠ -1 ∧
      IsInt (s.faults + s.touchs)
  | _ => True

/-! ## The parameters of a request -/

section

variable (e : PutEvent) (now : ℤ)

lemma params_sessionName :
    (e.params now).lookup "SessionName".toList = some (getSessionName e.config) := by
  simp [PutEvent.params, List.lookup_cons]

lemma params_type : (e.params now).lookup "Type".toList = some e.type := by
  simp [PutEvent.params, List.lookup_cons]

lemma params_value {d : ExtraData} (hd : e.data = some d) :
    (e.params now).lookup "Value".toList = some d.value := by
  cases hflag : e.flag <;>
    simp [PutEvent.params, hd, hflag, extraParams, statusParams, List.lookup_cons]

lemma params_start {d : ExtraData} (hd : e.data = some d) :
    (e.params now).lookup "start".toList = some (printULong d.start) := by
  cases hflag : e.flag <;>
    simp [PutEvent.params, hd, hflag, extraParams, statusParams, List.lookup_cons]

/-- The counters of the status, when they are sent. -/
lemma params_counters (hflag : e.flag = true) :
    (e.params now).lookup "Faltas".toList = some (printInt e.config.status.faults) ∧
      (e.params now).lookup "Tocados".toList = some (printInt e.config.status.touchs) ∧
      (e.params now).lookup "Rehuses".toList = some (printInt e.config.status.refusals) ∧
      (e.params now).lookup "Eliminado".toList = some (printInt e.config.status.eliminated) ∧
      (e.params now).lookup "Nopresentado".toList =
        some (printInt e.config.status.notpresent) := by
  simp [PutEvent.params, hflag, statusParams, List.lookup_cons]

end

/-! ## The event the others receive -/

lemma sentValue_printInt {x : ℤ} (hx : IsInt x) :
    sentValue (printInt x) = if x = -1 then none else some x := by
  have hread : atoi (printInt x) = x := atoi_printInt hx.1 hx.2
  unfold sentValue
  by_cases h : x = -1
  · subst h
    decide
  · have hne : printInt x ≠ "-1".toList := by
      intro htext
      rw [htext] at hread
      exact h (hread.symm.trans (by decide))
    rw [if_neg hne, if_neg h, hread]

/-- The counters of a status as an event sends them. -/
def Status.sent (s : Status) : Sent where
  faults := if s.faults = -1 then none else some s.faults
  touchs := if s.touchs = -1 then none else some s.touchs
  refusals := if s.refusals = -1 then none else some s.refusals
  eliminated := if s.eliminated = -1 then none else some s.eliminated

/-- What the other instances find in the event a command is published as. -/
def publishedUpdate (c : Command) (s : Status) (args : Tokens) : Update :=
  match c with
  | .start => .order .start (some (printULong (1 + s.startTime)))
  | .int => .order .int (some (printULong (1 + s.intTime)))
  | .stop => .order .stop (some (printULong (1 + s.stopTime)))
  | .fail | .ok => .order .fail none
  | .walk => .order .walk (some (printULong (atol (printULong (onlyArg strtol 420 args)))))
  | .down => .order .down (some "15".toList)
  | .reset => .order .reset none
  | .fault | .refusal | .elim | .data => .dog s.sent
  | _ => .nothing

section

variable (relay : Relay) (now : ℤ) {e : PutEvent} {config : Configuration} {typestr : CString}
  {data : Option ExtraData} {flag : Bool} {name : CString}
  (hname : name ≠ getSessionName config) {type : EventType}
  (htype : findEventType typestr = some type)

include hname htype

/-- The type of an event decides, for an instance that has not sent it. -/
lemma treeUpdate_relayed (he : e = ⟨config, typestr, data, flag⟩) :
    treeUpdate libcNull name (relay.data (e.params now)) =
      eventUpdate libcNull type (relay.data (e.params now)) := by
  have hsession := relay.same (by simp [relayedNames]) (params_sessionName e now)
  have htypestr := relay.same (by simp [relayedNames]) (params_type e now)
  unfold treeUpdate
  rw [hsession, htypestr, Option.bind_some, he, htype, if_neg]
  exact fun h => hname (Option.some.inj h).symm

lemma treeUpdate_fixed (he : e = ⟨config, typestr, data, flag⟩) {u : Update}
    (hfixed : ∀ rdata, eventUpdate libcNull type rdata = some u) :
    treeUpdate libcNull name (relay.data (e.params now)) = some u := by
  rw [treeUpdate_relayed relay now hname htype he, hfixed]

lemma treeUpdate_value {d : ExtraData} (he : e = ⟨config, typestr, some d, flag⟩)
    {null : Option CString} {c : Command}
    (hvalue : ∀ rdata, eventUpdate libcNull type rdata = valueUpdate null c rdata) :
    treeUpdate libcNull name (relay.data (e.params now)) = some (.order c (some d.value)) := by
  have hd : e.data = some d := by rw [he]
  rw [treeUpdate_relayed relay now hname htype he, hvalue, valueUpdate,
    relay.same (by simp [relayedNames]) (params_value e now hd), printPointer_some, Option.map_some]

end

section

variable (relay : Relay) (now : ℤ) {e : PutEvent} {config : Configuration} {name : CString}
  (hname : name ≠ getSessionName config)

include hname

lemma treeUpdate_walk {d : ExtraData} {flag : Bool}
    (he : e = ⟨config, "crono_rec".toList, some d, flag⟩) :
    treeUpdate libcNull name (relay.data (e.params now)) =
      some (.order .walk (some (printULong (atol (printULong d.start))))) := by
  have htype : findEventType "crono_rec".toList = some .cronoRec := by decide
  have hd : e.data = some d := by rw [he]
  have hstart := relay.same (by simp [relayedNames]) (params_start e now hd)
  rw [treeUpdate_relayed relay now hname htype he]
  simp only [eventUpdate]
  rw [hstart]
  rfl

lemma treeUpdate_dog {data : Option ExtraData}
    (he : e = ⟨config, "crono_dat".toList, data, true⟩)
    (hcounters : config.status.IntCounters) :
    treeUpdate libcNull name (relay.data (e.params now)) = some (.dog config.status.sent) := by
  have htype : findEventType "crono_dat".toList = some .cronoDat := by decide
  have hflag : e.flag = true := by rw [he]
  obtain ⟨hfaults, htouchs, hrefusals, heliminated, hnotpresent⟩ := params_counters e now hflag
  have hrelayed : ∀ {sent received v}, (sent, received) ∈ relayedCounters →
      (e.params now).lookup sent = some v →
        (relay.data (e.params now)).getPropertyValue received = some v :=
    fun hnames hsent => relay.renamed hnames hsent
  have hflt := hrelayed (.head _) hfaults
  have htoc := hrelayed (.tail _ (.head _)) htouchs
  have hreh := hrelayed (.tail _ (.tail _ (.head _))) hrefusals
  have heli := hrelayed (.tail _ (.tail _ (.tail _ (.head _)))) heliminated
  have hnpr := hrelayed (.tail _ (.tail _ (.tail _ (.tail _ (.head _))))) hnotpresent
  rw [treeUpdate_relayed relay now hname htype he]
  simp only [eventUpdate, sentCounters, hflt, htoc, hreh, heli, hnpr, Option.bind_eq_bind,
    Option.bind_some, Option.pure_def]
  rw [he, sentValue_printInt hcounters.faults, sentValue_printInt hcounters.touchs,
    sentValue_printInt hcounters.refusals, sentValue_printInt hcounters.eliminated]
  rfl

end

/-- What is published for another source. -/
lemma eq_of_ajaxMgrPut {type : CString} {data : Option ExtraData} {flag : Bool}
    {config : Configuration} {tokens : Tokens} {e : PutEvent}
    (hforeign : fromSource scAjaxsrv tokens = false)
    (he : some (ajaxMgrPut type data flag config tokens) = some (.putEvent e)) :
    e = ⟨config, type, data, flag⟩ := by
  unfold ajaxMgrPut at he
  rw [hforeign] at he
  cases he
  rfl

section

variable (config : Configuration) {source : CString} (word : CString)
  (hsource : source ≠ scAjaxsrv)
  (args : Tokens)

include hsource

lemma ajaxMgrWalk_eq :
    ajaxMgrWalk config (source :: word :: args) (source :: word :: args).length =
      some (ajaxMgrPut "crono_rec".toList (some ⟨[], [], onlyArg strtol 420 args, 0, 0⟩) false
        config (source :: word :: args)) := by
  match args with
  | [] => simp [ajaxMgrWalk, fromSource, hsource, onlyArg]
  | [a] => simp [ajaxMgrWalk, fromSource, hsource, onlyArg, atol]
  | a :: b :: rest => simp [ajaxMgrWalk, fromSource, hsource, onlyArg]

lemma ajaxMgrDown_eq :
    ∃ value, ajaxMgrDown config (source :: word :: args) (source :: word :: args).length =
      some (ajaxMgrPut "salida".toList (some (.ofValue value)) true config
        (source :: word :: args)) := by
  match args with
  | [] => exact ⟨"15".toList, by simp [ajaxMgrDown, fromSource, hsource]⟩
  | [a] => exact ⟨a, by simp [ajaxMgrDown, fromSource, hsource]⟩
  | a :: b :: rest => exact ⟨"15".toList, by simp [ajaxMgrDown, fromSource, hsource]⟩

end

/-- The event a handler of the ajax manager publishes, as the others read it. -/
lemma treeUpdate_published (relay : Relay) (now : ℤ) {c : Command} (hc : c.published = true)
    {config : Configuration} {source : CString} (hsource : source ≠ scAjaxsrv) {args : Tokens}
    (hcounters : config.status.IntCounters)
    {handler : Configuration → Tokens → ℕ → Option AjaxCall} {e : PutEvent}
    (hentry : ajaxMgrEntries c = some handler)
    (he : handler config (source :: c.cmd :: args) (source :: c.cmd :: args).length =
      some (.putEvent e)) {name : CString} (hname : name ≠ getSessionName config) :
    treeUpdate libcNull name (relay.data (e.params now)) =
      some (publishedUpdate c config.status args) := by
  have hforeign : fromSource scAjaxsrv (source :: c.cmd :: args) = false := by
    simp [fromSource, hsource]
  cases c with
  | start =>
    have htype : findEventType "crono_start".toList = some .cronoStart := by decide
    cases hentry
    exact treeUpdate_value relay now hname htype (eq_of_ajaxMgrPut hforeign he) fun _ => rfl
  | int =>
    have htype : findEventType "crono_int".toList = some .cronoInt := by decide
    cases hentry
    exact treeUpdate_value relay now hname htype (eq_of_ajaxMgrPut hforeign he) fun _ => rfl
  | stop =>
    have htype : findEventType "crono_stop".toList = some .cronoStop := by decide
    cases hentry
    exact treeUpdate_value relay now hname htype (eq_of_ajaxMgrPut hforeign he) fun _ => rfl
  | fail | ok =>
    have htype : findEventType "crono_error".toList = some .cronoError := by decide
    cases hentry
    exact treeUpdate_fixed relay now hname htype (eq_of_ajaxMgrPut hforeign he) fun _ => rfl
  | reset =>
    have htype : findEventType "crono_reset".toList = some .cronoReset := by decide
    cases hentry
    exact treeUpdate_fixed relay now hname htype (eq_of_ajaxMgrPut hforeign he) fun _ => rfl
  | down =>
    have htype : findEventType "salida".toList = some .salida := by decide
    cases hentry
    obtain ⟨value, hvalue⟩ := ajaxMgrDown_eq config Command.down.cmd hsource args
    rw [hvalue] at he
    exact treeUpdate_fixed relay now hname htype (eq_of_ajaxMgrPut hforeign he) fun _ => rfl
  | walk =>
    cases hentry
    rw [ajaxMgrWalk_eq config Command.walk.cmd hsource args] at he
    rw [treeUpdate_walk relay now hname (eq_of_ajaxMgrPut hforeign he)]
    rfl
  | fault | refusal | elim | data =>
    cases hentry
    exact treeUpdate_dog relay now hname (eq_of_ajaxMgrPut hforeign he) hcounters
  | _ => cases hc

/-! ## The command the others get -/

/-- What an event with a known update decodes to. -/
lemma decodesTo_iff {config : Configuration} {rdata : Json} {u : Update} {c₀ : Command}
    {args₀ : Tokens} (hu : treeUpdate libcNull (getSessionName config) rdata = some u)
    (hc : u.command = some c₀)
    (hargs : restTokens (sentRest c₀ (u.rest config.status)) = args₀) (hlen : args₀.length ≤ 30)
    {c : Command} {P : Tokens → Prop} : DecodesTo config rdata c P ↔ c = c₀ ∧ P args₀ := by
  have htree := processEventTree_eq libcNull config rdata
  rw [hu, Option.map_some] at htree
  dsimp only at htree
  rw [if_neg (take_text_ne_nil hc config.status)] at htree
  have hline := parseLine_update hc config.status
  rw [hargs, if_pos hlen] at hline
  constructor
  · rintro ⟨config', text, args, hevent, hparse, hP⟩
    rw [htree] at hevent
    cases hevent
    rw [hline] at hparse
    cases hparse
    exact ⟨rfl, hP⟩
  · rintro ⟨rfl, hP⟩
    exact ⟨_, _, args₀, htree, hline, hP⟩

/-- There is another instance, with all its counters at zero. -/
lemma exists_receiver (name : CString) :
    ∃ receiver : Configuration, getSessionName receiver ≠ name ∧
      receiver.status = defaultOptions.status := by
  by_cases h : getSessionName defaultOptions = name
  · refine ⟨{ defaultOptions with clientName := "other".toList }, ?_, rfl⟩
    rw [← h]
    decide
  · exact ⟨defaultOptions, h, rfl⟩

/-- A number printed as unsigned arrives as it is. -/
lemma restTokens_printULong (c : Command) (x : ℤ) :
    restTokens (sentRest c (' ' :: printULong x ++ "\n".toList)) = [printULong x] :=
  restTokens_sentRest c (not_mem_printULong (by decide) x) (not_mem_printULong (by decide) x)
    (by have := length_printULong x; omega)

lemma restTokens_newline (c : Command) : restTokens (sentRest c "\n".toList) = [] := by
  cases c <;> decide

lemma fifteen_clean : ' ' ∉ "15".toList ∧ '\n' ∉ "15".toList := by decide

/-- The text of the argument of a `data` command. -/
def DataArg.text (d : DataArg) : CString :=
  printInt d.faults ++ ':' :: printInt d.refusals ++ ':' :: printInt d.eliminated

lemma DataArg.notMem_text {ch : Char} (hdigit : ch.isDigit = false) (hminus : ch ≠ '-')
    (hcolon : ch ≠ ':') (d : DataArg) : ch ∉ d.text := by
  have hnumber : ∀ x, ch ∉ printInt x := not_mem_printInt hdigit hminus
  simp only [DataArg.text, List.mem_append, List.mem_cons, not_or]
  exact ⟨⟨hnumber _, hcolon, hnumber _⟩, hcolon, hnumber _⟩

lemma parseDataArg_text (d : DataArg) :
    parseDataArg d.text = some ⟨atoi (printInt d.faults), atoi (printInt d.refusals),
      atoi (printInt d.eliminated)⟩ := by
  have hcolon : ∀ x, ':' ∉ printInt x := not_mem_printInt (by decide) (by decide)
  have hfirst : cutAt ':' d.text =
      some (printInt d.faults, printInt d.refusals ++ ':' :: printInt d.eliminated) := by
    rw [DataArg.text, List.append_assoc]
    exact cutAt_append (hcolon _) _
  simp [parseDataArg, hfirst, cutAt_append (hcolon d.refusals)]

lemma atoi_printInt_iff (x : ℤ) : atoi (printInt x) = x ↔ IsInt x := by
  constructor
  · intro h
    have hbounds := atoi_bounds (printInt x)
    rwa [h] at hbounds
  · rintro ⟨hlo, hhi⟩
    exact atoi_printInt hlo hhi

/-- The `data` command of another instance arrives as it is. -/
lemma restTokens_text {d : DataArg} (hf : -10 ^ 10 < d.faults ∧ d.faults < 10 ^ 10)
    (hr : IsInt d.refusals) (he : IsInt d.eliminated) :
    restTokens (sentRest .data (' ' :: d.text ++ "\n".toList)) = [d.text] := by
  refine restTokens_sentRest .data (d.notMem_text (by decide) (by decide) (by decide))
    (d.notMem_text (by decide) (by decide) (by decide)) ?_
  have hlenf := length_printInt hf.1 hf.2
  have hlenr := hr.length_printInt
  have hlene := he.length_printInt
  simp only [DataArg.text, List.length_append, List.length_cons]
  omega

/-- Timestamps main has stored. -/
lemma time_of_accepted {config config' : Configuration} {buffer source : CString} {c : Command}
    {args : Tokens}
    (h : mainFront config buffer = some (.dispatch c (source :: c.cmd :: args) config')) :
    (c = .start → config'.status.startTime = timeArg args) ∧
      (c = .int → config'.status.intTime = timeArg args) ∧
      (c = .stop → config'.status.stopTime = timeArg args) := by
  obtain ⟨hline, -⟩ := mainFront_dispatch h
  have haccepted : ¬ Rejected config buffer := by
    rw [← mainFront_answered_iff h]
    rintro ⟨_, _, hfront⟩
    cases hfront
  simp only [Rejected, hline, not_or, not_and, List.length_cons] at haccepted
  have hstatus : ∀ hc : c ≠ .bright, ∃ f, commandEffect c args = some f ∧
      config'.status = f config.status := by
    intro hc
    have hconfig := mainFront_config config hc hline
    rw [h, Option.map_some, eq_comm, Option.map_eq_some_iff] at hconfig
    obtain ⟨f, hf, hconfig⟩ := hconfig
    exact ⟨f, hf, congrArg Configuration.status hconfig.symm⟩
  refine ⟨?_, ?_, ?_⟩
  · rintro rfl
    obtain ⟨f, hf, hs⟩ := hstatus (by decide)
    cases hf
    rw [hs]
    rfl
  · rintro rfl
    obtain ⟨f, hf, hs⟩ := hstatus (by decide)
    cases hf
    obtain ⟨hrunning, hargs⟩ := haccepted.1 (.inl rfl)
    rw [hs]
    dsimp only
    rw [if_neg hrunning]
    cases args with
    | nil => simp at hargs
    | cons t rest => rfl
  · rintro rfl
    obtain ⟨f, hf, hs⟩ := hstatus (by decide)
    cases hf
    obtain ⟨hrunning, hargs⟩ := haccepted.1 (.inr rfl)
    rw [hs]
    dsimp only
    rw [if_neg hrunning]
    cases args with
    | nil => simp at hargs
    | cons t rest => rfl

/-! ## The round trip -/

/-- A timestamp comes back one above, as long as neither of the two is out of range or
negative, -1 apart. -/
lemma time_decodes_iff {x : ℤ} (hlo : longMin ≤ x) (hhi : x ≤ longMax) :
    (∃ a, [printULong (1 + x)] = [a] ∧ strtol a = x + 1) ↔ -1 ≤ x ∧ x < longMax := by
  simp only [List.cons.injEq, and_true, exists_eq_left', strtol_printULong]
  unfold longMin longMax toUInt64 at *
  omega

/-- A number of seconds comes back as it is if it is not negative. -/
lemma walk_decodes_iff {x : ℤ} (hlo : longMin ≤ x) (hhi : x ≤ longMax) :
    (∃ a, [printULong (atol (printULong x))] = [a] ∧ strtol a = x) ↔ 0 ≤ x := by
  simp only [List.cons.injEq, and_true, exists_eq_left', atol, strtol_printULong]
  unfold longMin longMax toUInt64 at *
  omega

/-- A countdown comes back with 15 seconds. -/
lemma down_decodes_iff (x : ℤ) : (∃ a, ["15".toList] = [a] ∧ strtol a = x) ↔ x = 15 := by
  have hfifteen : strtol "15".toList = 15 := by decide
  simp only [List.cons.injEq, and_true, exists_eq_left', hfifteen]
  exact eq_comm

lemma timeArg_bounds (args : Tokens) : longMin ≤ timeArg args ∧ timeArg args ≤ longMax := by
  unfold timeArg
  cases args.head? with
  | none => decide
  | some a => exact strtol_bounds a

lemma onlyArg_bounds (dflt : ℤ) (hlo : longMin ≤ dflt) (hhi : dflt ≤ longMax) (args : Tokens) :
    longMin ≤ onlyArg strtol dflt args ∧ onlyArg strtol dflt args ≤ longMax := by
  match args with
  | [] => exact ⟨hlo, hhi⟩
  | [a] => exact strtol_bounds a
  | _ :: _ :: _ => exact ⟨hlo, hhi⟩

/-- An event with the same arguments for every instance. -/
lemma forall_decodesTo_iff {name : CString} {rdata : Json} {u : Update} {c₀ : Command}
    {args₀ : Tokens}
    (hu : ∀ receiver, getSessionName receiver ≠ name →
      treeUpdate libcNull (getSessionName receiver) rdata = some u)
    (hc : u.command = some c₀) (hargs : ∀ s, restTokens (sentRest c₀ (u.rest s)) = args₀)
    (hlen : args₀.length ≤ 30) {c : Command} {P : Tokens → Prop} :
    (∀ receiver, getSessionName receiver ≠ name → DecodesTo receiver rdata c P) ↔
      c = c₀ ∧ P args₀ := by
  constructor
  · intro h
    obtain ⟨receiver, hname, -⟩ := exists_receiver name
    exact (decodesTo_iff (hu receiver hname) hc (hargs _) hlen).mp (h receiver hname)
  · intro h receiver hname
    exact (decodesTo_iff (hu receiver hname) hc (hargs _) hlen).mpr h

/-- The totals another instance gets. -/
lemma sameTotals_iff {s : Status} {config : Configuration} {rdata : Json}
    (hu : treeUpdate libcNull (getSessionName config) rdata = some (.dog s.sent))
    (hf : -10 ^ 10 < (s.sent.dataArg config.status).faults ∧
      (s.sent.dataArg config.status).faults < 10 ^ 10)
    (hr : IsInt (s.sent.dataArg config.status).refusals)
    (he : IsInt (s.sent.dataArg config.status).eliminated) :
    DecodesTo config rdata .data (SameTotals s) ↔
      atoi (printInt (s.sent.dataArg config.status).faults) = s.faults + s.touchs ∧
        (s.sent.dataArg config.status).refusals = s.refusals ∧
        (s.sent.dataArg config.status).eliminated = s.eliminated := by
  rw [decodesTo_iff hu rfl (restTokens_text hf hr he) (by simp)]
  simp only [SameTotals, true_and, List.cons.injEq, and_true, exists_eq_left', parseDataArg_text,
    Option.mem_def, Option.some.injEq, (atoi_printInt_iff _).mpr hr, (atoi_printInt_iff _).mpr he]

/-- The counters come back to every instance if none of them is -1. -/
lemma forall_sameTotals_iff {s : Status} (hs : s.IntCounters) {name : CString} {rdata : Json}
    (hu : ∀ receiver, getSessionName receiver ≠ name →
      treeUpdate libcNull (getSessionName receiver) rdata = some (.dog s.sent)) :
    (∀ receiver, getSessionName receiver ≠ name →
      DecodesTo receiver rdata .data (SameTotals s)) ↔
      s.faults ≠ -1 ∧ s.touchs ≠ -1 ∧ s.refusals ≠ -1 ∧ s.eliminated ≠ -1 ∧
        IsInt (s.faults + s.touchs) := by
  obtain ⟨⟨hf, hf'⟩, ⟨ht, ht'⟩, hr, he⟩ := hs
  constructor
  · intro h
    -- an instance with its counters at zero tells -1 from every value
    obtain ⟨receiver, hname, hzero⟩ := exists_receiver name
    have hstatus : s.sent.dataArg receiver.status =
        ⟨(if s.faults = -1 then 0 else s.faults) + (if s.touchs = -1 then 0 else s.touchs),
          if s.refusals = -1 then 0 else s.refusals,
          if s.eliminated = -1 then 0 else s.eliminated⟩ := by
      rw [hzero]
      unfold Status.sent Sent.dataArg
      split_ifs <;> rfl
    have hall := h receiver hname
    rw [sameTotals_iff (hu receiver hname)
      (by rw [hstatus]; dsimp only; omega) (by rw [hstatus]; unfold IsInt at *; dsimp only; omega)
      (by rw [hstatus]; unfold IsInt at *; dsimp only; omega), hstatus] at hall
    obtain ⟨hfaults, hrefusals, heliminated⟩ := hall
    dsimp only at hfaults hrefusals heliminated
    have hpresent : s.faults ≠ -1 ∧ s.touchs ≠ -1 := by
      by_contra hmissing
      rw [not_and_or, not_not, not_not] at hmissing
      have hrange : IsInt ((if s.faults = -1 then 0 else s.faults) +
          if s.touchs = -1 then 0 else s.touchs) := by
        unfold IsInt
        split_ifs <;> omega
      rw [(atoi_printInt_iff _).mpr hrange] at hfaults
      split_ifs at hfaults <;> omega
    rw [if_neg hpresent.1, if_neg hpresent.2] at hfaults
    refine ⟨hpresent.1, hpresent.2, ?_, ?_, (atoi_printInt_iff _).mp hfaults⟩
    · intro h
      simp [h] at hrefusals
    · intro h
      simp [h] at heliminated
  · rintro ⟨hfaults, htouchs, hrefusals, heliminated, hsum⟩ receiver hname
    have hstatus : s.sent.dataArg receiver.status =
        ⟨s.faults + s.touchs, s.refusals, s.eliminated⟩ := by
      simp [Status.sent, Sent.dataArg, hfaults, htouchs, hrefusals, heliminated]
    rw [sameTotals_iff (hu receiver hname)
      (by rw [hstatus]; dsimp only; omega) (by rw [hstatus]; exact hr) (by rw [hstatus]; exact he),
      hstatus]
    exact ⟨(atoi_printInt_iff _).mpr hsum, rfl, rfl⟩

/-- A command that is handed over is published. -/
lemma exists_published {c : Command} (hc : c.published = true) (config : Configuration)
    {source : CString} (hsource : source ≠ scAjaxsrv) (args : Tokens) :
    ∃ handler e, ajaxMgrEntries c = some handler ∧
      handler config (source :: c.cmd :: args) (source :: c.cmd :: args).length =
        some (.putEvent e) := by
  have hput : ∀ type data flag, ∃ e,
      ajaxMgrPut type data flag config (source :: c.cmd :: args) = .putEvent e := by
    intro type data flag
    refine ⟨⟨config, type, data, flag⟩, ?_⟩
    simp [ajaxMgrPut, fromSource, hsource]
  cases c with
  | walk =>
    obtain ⟨e, he⟩ := hput "crono_rec".toList (some ⟨[], [], onlyArg strtol 420 args, 0, 0⟩) false
    exact ⟨_, e, rfl, by rw [ajaxMgrWalk_eq config _ hsource args, he]⟩
  | down =>
    obtain ⟨value, hvalue⟩ := ajaxMgrDown_eq config Command.down.cmd hsource args
    obtain ⟨e, he⟩ := hput "salida".toList (some (.ofValue value)) true
    exact ⟨_, e, rfl, by rw [hvalue, he]⟩
  | start | int | stop | fail | ok | reset | fault | refusal | elim | data =>
    obtain ⟨e, he⟩ := hput _ _ _
    exact ⟨_, e, rfl, congrArg some he⟩
  | _ => cases hc

/-- What comes back of a command that is handed over. -/
lemma handedOver_iff (relay : Relay) (now : ℤ) {config config' : Configuration}
    {buffer source : CString} {c : Command} {args : Tokens}
    (h : HandedOver config buffer c source args config')
    {handler : Configuration → Tokens → ℕ → Option AjaxCall} {e : PutEvent}
    (hentry : ajaxMgrEntries c = some handler)
    (he : handler config' (source :: c.cmd :: args) (source :: c.cmd :: args).length =
      some (.putEvent e)) :
    (∀ receiver, getSessionName receiver ≠ getSessionName config' →
      DecodesTo receiver (relay.data (e.params now)) c.relayedAs
        (SameArgs c config'.status args)) ↔ KeepsMeaning c config'.status args := by
  have hu : ∀ receiver, getSessionName receiver ≠ getSessionName config' →
      treeUpdate libcNull (getSessionName receiver) (relay.data (e.params now)) =
        some (publishedUpdate c config'.status args) := fun receiver hname =>
    treeUpdate_published relay now h.published h.foreign h.counters hentry he hname
  obtain ⟨hstart, hint, hstop⟩ := time_of_accepted h.accepted
  obtain ⟨hlo, hhi⟩ := timeArg_bounds args
  cases c with
  | start =>
    rw [forall_decodesTo_iff hu rfl (fun _ => restTokens_printULong _ _) (by simp), hstart rfl]
    exact (and_iff_right rfl).trans (time_decodes_iff hlo hhi)
  | int =>
    rw [forall_decodesTo_iff hu rfl (fun _ => restTokens_printULong _ _) (by simp), hint rfl]
    exact (and_iff_right rfl).trans (time_decodes_iff hlo hhi)
  | stop =>
    rw [forall_decodesTo_iff hu rfl (fun _ => restTokens_printULong _ _) (by simp), hstop rfl]
    exact (and_iff_right rfl).trans (time_decodes_iff hlo hhi)
  | walk =>
    obtain ⟨hlo, hhi⟩ := onlyArg_bounds 420 (by decide) (by decide) args
    rw [forall_decodesTo_iff hu rfl (fun _ => restTokens_printULong _ _) (by simp)]
    exact (and_iff_right rfl).trans (walk_decodes_iff hlo hhi)
  | down =>
    have hargs := restTokens_sentRest .down fifteen_clean.1 fifteen_clean.2 (by decide)
    rw [forall_decodesTo_iff hu rfl (fun _ => hargs) (by simp)]
    exact (and_iff_right rfl).trans (down_decodes_iff _)
  | fail | reset =>
    rw [forall_decodesTo_iff hu rfl (fun _ => restTokens_newline _) (by simp)]
    exact iff_of_true ⟨rfl, rfl⟩ trivial
  | ok =>
    rw [forall_decodesTo_iff hu rfl (fun _ => restTokens_newline _) (by simp)]
    exact iff_of_false (fun hok => by cases hok.1) id
  | fault | refusal | elim | data => exact forall_sameTotals_iff h.counters hu
  | _ => cases h.published

/-- **The round trip.** A datagram that main accepts and hands over to the ajax manager comes
back to every other instance as the same command with the same arguments if and only if its
command and its arguments are among those that keep their meaning. -/
theorem roundTrip_iff (relay : Relay) (now : ℤ) (config : Configuration) (buffer : CString) :
    RoundTrip relay now config buffer ↔
      ∀ c source args config', HandedOver config buffer c source args config' →
        KeepsMeaning c config'.status args := by
  constructor
  · intro h c source args config' hover
    obtain ⟨handler, e, hentry, he⟩ :=
      exists_published hover.published config' hover.foreign args
    exact (handedOver_iff relay now hover hentry he).mp
      (h c source args config' hover handler e hentry he)
  · intro h c source args config' hover handler e hentry he
    exact (handedOver_iff relay now hover hentry he).mpr (h c source args config' hover)

/-! ### A server -/

lemma getPropertyValue_ofFields (fields : List (CString × CString)) (name : CString) :
    (Json.ofFields fields).getPropertyValue name = fields.lookup name := by
  unfold Json.getPropertyValue Json.ofFields Json.getProperty
  dsimp only
  induction fields with
  | nil => rfl
  | cons f fields ih =>
    rw [List.map_cons, List.lookup_cons, List.lookup_cons]
    cases name == f.1 with
    | true => rfl
    | false => exact ih

/-- The properties a server adds for the parameters with another name. -/
def renamedFields (params : List Param) (names : List (CString × CString)) :
    List (CString × CString) :=
  names.filterMap fun n => (params.lookup n.1).map fun v => (n.2, v)

lemma lookup_renamedFields {params : List Param} {names : List (CString × CString)}
    (hnames : (names.map Prod.snd).Nodup) {sent received v : CString}
    (hmem : (sent, received) ∈ names) (hv : params.lookup sent = some v) :
    (renamedFields params names).lookup received = some v := by
  induction names with
  | nil => cases hmem
  | cons n names ih =>
    rw [List.map_cons, List.nodup_cons] at hnames
    unfold renamedFields at ih ⊢
    rcases List.mem_cons.mp hmem with rfl | hmem
    · simp [hv]
    · have hne : received ≠ n.2 := by
        rintro rfl
        exact hnames.1 (List.mem_map.mpr ⟨_, hmem, rfl⟩)
      have hnext := ih hnames.2 hmem
      cases hn : params.lookup n.1 with
      | none => simpa [hn] using hnext
      | some w =>
        have hbeq : (received == n.2) = false := beq_false_of_ne hne
        simpa [hn, List.lookup_cons, hbeq] using hnext

lemma lookup_renamedFields_none {params : List Param} {names : List (CString × CString)}
    {name : CString} (h : ∀ n ∈ names, name ≠ n.2) :
    (renamedFields params names).lookup name = none := by
  rw [List.lookup_eq_none_iff]
  intro field hfield
  obtain ⟨n, hn, hfield⟩ := List.mem_filterMap.mp hfield
  obtain ⟨v, -, rfl⟩ := Option.map_eq_some_iff.mp hfield
  simpa using h n hn

/-- The server that relays every parameter, and the counters under their other name too. -/
def plainRelay : Relay where
  data params := .ofFields (renamedFields params relayedCounters ++ params)
  same {name} hname {params v} hv := by
    have hother : ∀ name ∈ relayedNames, ∀ n ∈ relayedCounters, name ≠ n.2 := by decide
    rw [getPropertyValue_ofFields, List.lookup_append,
      lookup_renamedFields_none (hother name hname), hv, Option.none_or]
  renamed {sent received} hnames {params v} hv := by
    rw [getPropertyValue_ofFields, List.lookup_append,
      lookup_renamedFields (by decide) hnames hv, Option.some_or]

/-- `ok` is published as an error of the sensors, and comes back as `fail`. -/
theorem ok_comes_back_as_fail :
    ¬ ∀ (relay : Relay) (now : ℤ) (config : Configuration) (buffer : CString),
      RoundTrip relay now config buffer := by
  intro h
  have hover : HandedOver defaultOptions "comm_server ok".toList .ok "comm_server".toList []
      defaultOptions := by
    refine ⟨by decide, rfl, by decide, ?_⟩
    refine ⟨?_, ?_, ?_, ?_⟩ <;> exact ⟨by decide, by decide⟩
  have hall := h plainRelay 0 defaultOptions "comm_server ok".toList .ok "comm_server".toList []
    defaultOptions hover ajaxMgrOk
    ⟨defaultOptions, "crono_error".toList, some (.ofValue "0".toList), false⟩ rfl (by decide)
  exact (handedOver_iff plainRelay 0 hover rfl (by decide)).mp hall

end SerialChrono
