import Mathlib.Data.List.Forall2
import SerialChrono.Events.Own
import SerialChrono.Library.UrlQuery

/-!
# Events between two programs (`main.c`, `ajax_curl.c`, `ajax_json.c`)

The server sends an event to all the programs that listen.  The one that has published it is to
ignore it, the others are not, and all of them tell by the session name, which is part of a URL on
its way.  `main` replaces in the name of the client what a URL would change, so that the name
arrives as it was sent, and takes the same name for two clients that differ in such characters
only: `ignored_by_other_iff` says which programs are deaf to each other.
-/

namespace SerialChrono

open CText PartialRun UrlQuery

/-! ## The name of the session -/

/-- What the name of a session begins with. -/
def sessionPrefix (sessionID : ℤ) : CString :=
  "chrono:".toList ++ printInt sessionID ++ ":0:0:".toList

lemma length_sessionPrefix {sessionID : ℤ} (hid : IsInt sessionID) :
    (sessionPrefix sessionID).length ≤ 23 := by
  have hlen := hid.length_printInt
  have hscheme : "chrono:".toList.length = 7 := rfl
  have hzeros : ":0:0:".toList.length = 5 := rfl
  unfold sessionPrefix
  rw [List.length_append, List.length_append, hscheme, hzeros]
  omega

/-- The name of the session before it is cut. -/
def sessionText (config : Configuration) : CString :=
  sessionPrefix config.status.sessionID ++ config.clientName

lemma getSessionName_eq_take (config : Configuration) :
    getSessionName config = (sessionText config).take 1023 := rfl

/-! ## The request -/

def paramText (p : Param) : CString := p.1 ++ '=' :: p.2

/-- Where events are sent to. -/
def eventUrl (ajaxServer : CString) : CString :=
  "https://".toList ++ ajaxServer ++ "/agility/ajax/database/eventFunctions.php".toList

/-- The text of `sc_puteventurl`. -/
def PutEvent.url (e : PutEvent) (now : ℤ) : CString :=
  eventUrl e.config.ajaxServer ++ '?' :: List.intercalate ['&'] ((e.params now).map paramText)

/-- What the query continues with after `SessionName=`. -/
def PutEvent.afterSessionName (e : PutEvent) (now : ℤ) : CString :=
  getSessionName e.config ++ ((e.params now).drop 5).flatMap fun p => '&' :: paramText p

lemma intercalate_append_cons (sep : Char) (ts : List CString) (u : CString) (us : List CString) :
    List.intercalate [sep] (ts ++ u :: us) =
      (ts.flatMap fun t => t ++ [sep]) ++ (u ++ us.flatMap fun v => sep :: v) := by
  induction ts with
  | nil => exact intercalate_eq_append_flatMap sep u us
  | cons t ts ih =>
    obtain ⟨v, vs, hcons⟩ := List.exists_cons_of_ne_nil
      (List.append_ne_nil_of_right_ne_nil ts (List.cons_ne_nil u us))
    rw [List.cons_append, hcons, List.intercalate_cons_cons, ← hcons, ih, List.flatMap_cons,
      List.append_assoc _ _ (u ++ _)]

/-- The request up to the name of the session, and what continues it. -/
lemma PutEvent.url_eq (e : PutEvent) (now : ℤ) :
    e.url now = eventUrl e.config.ajaxServer ++ '?' ::
      (((e.params now).take 4).flatMap (fun p => paramText p ++ ['&']) ++
        ("SessionName=".toList ++ e.afterSessionName now)) := by
  have hparams : e.params now = (e.params now).take 4 ++
      ("SessionName".toList, getSessionName e.config) :: (e.params now).drop 5 := rfl
  have hname : paramText ("SessionName".toList, getSessionName e.config) =
      "SessionName=".toList ++ getSessionName e.config := rfl
  rw [PutEvent.url, PutEvent.afterSessionName]
  conv_lhs => rw [hparams]
  rw [List.map_append, List.map_cons, intercalate_append_cons, hname, List.flatMap_map,
    List.flatMap_map, List.append_assoc "SessionName=".toList]

/-- A request that fits its buffer has a short name in it. -/
lemma PutEvent.length_clientName_of_url {e : PutEvent} {now : ℤ} (h : (e.url now).length < 2018) :
    e.config.clientName.length < 1000 := by
  have hmem : ("Name".toList, e.config.clientName) ∈ (e.params now).take 4 :=
    List.mem_of_getElem? (i := 3) rfl
  have hname : (paramText ("Name".toList, e.config.clientName) ++ ['&']).length ≤
      (((e.params now).take 4).flatMap fun p => paramText p ++ ['&']).length := by
    rw [List.flatMap_def]
    exact (List.sublist_flatten_of_mem
      (List.mem_map_of_mem (f := fun p => paramText p ++ ['&']) hmem)).length_le
  have hsession : min 1023 e.config.clientName.length ≤ (e.afterSessionName now).length := by
    rw [PutEvent.afterSessionName, getSessionName_eq_take, sessionText, List.length_append,
      List.length_take, List.length_append]
    omega
  have hserver : 18 ≤ (eventUrl e.config.ajaxServer).length := by
    unfold eventUrl
    rw [List.length_append]
    exact Nat.le_add_left_of_le (by decide)
  rw [e.url_eq] at h
  simp only [List.length_append, List.length_cons, paramText] at h hname
  omega

/-- Two names agree, if one of them is short, just if the sessions and the clients do. -/
lemma getSessionName_eq_iff {config config' : Configuration}
    (hid : IsInt config.status.sessionID) (hid' : IsInt config'.status.sessionID)
    (hshort : config.clientName.length < 1000) :
    getSessionName config = getSessionName config' ↔
      config.status.sessionID = config'.status.sessionID ∧
        config.clientName = config'.clientName := by
  have hlen := length_sessionPrefix hid
  have hname : getSessionName config = sessionText config := by
    rw [getSessionName_eq_take, sessionText, List.take_of_length_le]
    rw [List.length_append]
    omega
  constructor
  · intro h
    have hsession := sessionID_eq_of_getSessionName hid' hid h
    have hcut : sessionText config = (sessionText config').take 1023 := by
      rw [← hname, h, getSessionName_eq_take]
    have hwhole : sessionText config = sessionText config' := by
      have hlength := congrArg List.length hcut
      rw [List.length_take, sessionText, List.length_append] at hlength
      rw [hcut, List.take_of_length_le (by omega)]
    rw [sessionText, sessionText, hsession] at hwhole
    exact ⟨hsession, List.append_cancel_left hwhole⟩
  · rintro ⟨hsession, hclient⟩
    exact (Configuration.SameSession.mk hsession hclient).getSessionName_eq

/-- The names of two clients are the same but for characters that are no letters and no digits. -/
def Alike (name name' : CString) : Prop :=
  List.Forall₂ (fun c d => c = d ∨ c.isAlphanum = false ∧ d.isAlphanum = false) name name'

lemma fixClientName_eq_iff {name name' : CString} :
    fixClientName name = fixClientName name' ↔ Alike name name' := by
  have hmark : '_'.isAlphanum = false := by decide
  have hchar : ∀ c d : Char, (if c.isAlphanum then c else '_') = (if d.isAlphanum then d else '_') ↔
      c = d ∨ c.isAlphanum = false ∧ d.isAlphanum = false := by
    intro c d
    cases hc : c.isAlphanum <;> cases hd : d.isAlphanum
    · simp
    · simp only [Bool.false_eq_true, if_false, if_true]
      refine iff_of_false ?_ ?_
      · rintro rfl
        rw [hmark] at hd
        cases hd
      · rintro (rfl | ⟨-, h⟩)
        · rw [hc] at hd
          cases hd
        · cases h
    · simp only [Bool.false_eq_true, if_false, if_true]
      refine iff_of_false ?_ ?_
      · rintro rfl
        rw [hmark] at hc
        cases hc
      · rintro (rfl | ⟨h, -⟩)
        · rw [hd] at hc
          cases hc
        · cases h
    · simp
  unfold fixClientName Alike
  rw [← List.forall₂_eq_eq_eq, List.forall₂_map_left_iff, List.forall₂_map_right_iff]
  simp only [hchar]

/-- The server reads the name as it was sent. -/
lemma paramValue_afterSessionName {e : PutEvent} {clientName : CString}
    (h : e.config.clientName = fixClientName clientName) (now : ℤ) :
    paramValue (e.afterSessionName now) = getSessionName e.config := by
  have hsafe : ∀ c ∈ getSessionName e.config, c ≠ '&' ∧ c ≠ '#' ∧ c ≠ '+' ∧ c ≠ '%' := by
    intro c hc
    have := urlSafe_getSessionName h c hc
    refine ⟨?_, ?_, ?_, ?_⟩ <;> (rintro rfl; exact absurd this (by decide))
  have hrest : ∃ rest, ((e.params now).drop 5).flatMap (fun p => '&' :: paramText p) =
      '&' :: rest := ⟨_, rfl⟩
  obtain ⟨rest, hrest⟩ := hrest
  rw [PutEvent.afterSessionName, hrest, paramValue_append_amp, ← List.append_nil (getSessionName _),
    paramValue_append hsafe]
  rfl

/-! ## Runs -/

/-- The events carry the name of the client that has published them. -/
structure OwnState.Signed (clientName : CString) (s : OwnState) : Prop where
  identified : s.Identified clientName
  published : ∀ p ∈ s.published, IsInt p.event.config.status.sessionID ∧
    p.event.config.clientName = fixClientName clientName

lemma signed_step {jsonCreate : JsonCreate} {clientName : CString} {s t : OwnState} {i : OwnInput}
    (h : s.Signed clientName) (hstep : ownStep jsonCreate s i = some t) : t.Signed clientName := by
  refine ⟨identified_step h.identified hstep, fun p hp => ?_⟩
  rcases ownStep_cases hstep with ⟨hkeeps, -⟩ | ⟨answer, ses, -, -, rfl⟩
  · rcases hkeeps.published p hp with hold | ⟨-, hid, hclient⟩
    · exact h.published p hold
    · rw [hid, hclient]
      exact ⟨h.identified.sessionID, h.identified.clientName⟩
  · rw [OwnState.published_connect] at hp
    exact h.published p hp

lemma signed_run {jsonCreate : JsonCreate} {ajaxServer clientName : CString} {ring : ℤ}
    {inputs : List OwnInput} {s : OwnState}
    (h : run (ownStep jsonCreate) (ownStart ajaxServer clientName ring) inputs = some s) :
    s.Signed clientName := by
  have hstart : (ownStart ajaxServer clientName ring).Signed clientName :=
    ⟨identified_ownStart ajaxServer clientName ring, fun p hp => by cases hp⟩
  have hsigned : Always (ownStep jsonCreate) (OwnState.Signed clientName)
      (ownStart ajaxServer clientName ring) inputs :=
    always_of_along (fun _ _ _ h _ hstep => signed_step h hstep) hstart
      (along_of_forall (fun _ _ => trivial) _)
  exact hsigned.of_run h

/-- Whatever the server sends to a program for this event has no effect there. -/
def PutEvent.IgnoredBy (e : PutEvent) (now : ℤ) (config : Configuration) : Prop :=
  ∀ rdata : Json, rdata.getPropertyValue "SessionName".toList =
      some (paramValue (e.afterSessionName now)) →
    processEventTree libcNull config rdata = some (config, none)

/-- **Deaf to each other.** At any point of the runs of two programs, the one ignores an event that
the other has published if and only if it has the session number the event was published with, and
the names the clients were given differ in marks only. -/
theorem ignored_by_other_iff {jsonCreate jsonCreate' : JsonCreate}
    {ajaxServer ajaxServer' clientName clientName' : CString} {ring ring' : ℤ}
    {inputs inputs' : List OwnInput} {s s' : OwnState}
    (hrun : run (ownStep jsonCreate) (ownStart ajaxServer clientName ring) inputs = some s)
    (hrun' : run (ownStep jsonCreate') (ownStart ajaxServer' clientName' ring') inputs' = some s')
    {p : Publication} (hp : p ∈ s.published) {now : ℤ} (hurl : (p.event.url now).length < 2018) :
    p.event.IgnoredBy now s'.config ↔
      p.event.config.status.sessionID = s'.config.status.sessionID ∧
        Alike clientName clientName' := by
  obtain ⟨hid, hclient⟩ := (signed_run hrun).published p hp
  obtain ⟨hid', hclient'⟩ := (signed_run hrun').identified
  have hname := getSessionName_eq_iff hid hid' (PutEvent.length_clientName_of_url hurl)
  rw [hclient, hclient', fixClientName_eq_iff] at hname
  rw [← hname, PutEvent.IgnoredBy, paramValue_afterSessionName hclient]
  constructor
  · intro h
    by_contra hne
    have hread : ∀ name, (resetEcho name).getPropertyValue "SessionName".toList = some name :=
      fun _ => rfl
    have hignored := h (resetEcho (getSessionName p.event.config)) (hread _)
    rw [processEventTree_resetEcho hne] at hignored
    cases hignored
  · intro h rdata hrdata
    exact if_pos (hrdata.trans (congrArg some h))

/-- Two programs with the options they come with, on the same ring. -/
theorem ignored_by_other_generic :
    PutEvent.IgnoredBy ⟨{ defaultOptions with status.startTime := 0 }, "crono_start".toList,
        some (.ofValue "1".toList), false⟩ 0 defaultOptions ↔
      (0 : ℤ) = 0 ∧ Alike "generic".toList "generic".toList := by
  have hrun : run (ownStep sessionsJson) (ownStart "localhost".toList "generic".toList 1)
      [.entries, .datagram "comm_server start 0".toList []] =
        some ⟨{ defaultOptions with status.startTime := 0 }, .connecting,
          [⟨["comm_server".toList, "start".toList, "0".toList],
            ⟨{ defaultOptions with status.startTime := 0 }, "crono_start".toList,
              some (.ofValue "1".toList), false⟩⟩]⟩ := by
    decide
  exact @ignored_by_other_iff _ sessionsJson _ "localhost".toList _ "generic".toList _ 1 _ [] _ _
    hrun rfl _ (List.mem_singleton.mpr rfl) 0 (by decide +kernel)

end SerialChrono
