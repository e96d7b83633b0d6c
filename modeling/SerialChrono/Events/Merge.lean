import SerialChrono.Events.Batches
import SerialChrono.Managers.Publish
import SerialChrono.Library.PartialRun

/-!
# Dog data merged field by field (`ajax_json.c`, `main_mgr.c`)

An event sends -1 for a value it does not change.  `llamada` writes its values to the status at
once, one test for each, except that the test before `notpresent` looks at the faults
(`call_perField_iff`).

`datos` and `crono_dat` go through a `data` command, which has one number for faults and
touches together.  Main takes the touches it has away from that number and leaves them as they
are, so a value sent for the touches ends up in the faults.  `MergeLog` keeps the values
received beside the status, and `merged_iff_along` says that the counters are the values
received last exactly as long as the touches sent are those main has already, the sum fits an
`int`, and the elimination is 0 or 1.
-/

namespace SerialChrono

open CText PartialRun

/-! ## `llamada` -/

/-- A counter follows the text sent for it: it keeps its value for `-1` and takes the value of
any other text. -/
structure FollowsText (text : CString) (old new : ℤ) : Prop where
  kept : text = "-1".toList → new = old
  taken : text ≠ "-1".toList → new = atoi text

lemma followsText_iff {text : CString} {old new : ℤ} :
    FollowsText text old new ↔ new = keepOr old text := by
  unfold keepOr
  by_cases h : text = "-1".toList
  · rw [if_pos h]
    exact ⟨fun hf => hf.kept h, fun hnew => ⟨fun _ => hnew, fun hne => absurd h hne⟩⟩
  · rw [if_neg h]
    exact ⟨fun hf => hf.taken h, fun hnew => ⟨fun heq => absurd heq h, fun _ => hnew⟩⟩

/-- The texts an event sends for the competitor's data. -/
structure DogTexts where
  flt : CString
  toc : CString
  reh : CString
  eli : CString
  npr : CString
  deriving DecidableEq, Repr

/-- The event has these texts. -/
structure DogTexts.In (v : DogTexts) (rdata : Json) : Prop where
  flt : rdata.getPropertyValue "Flt".toList = some v.flt
  toc : rdata.getPropertyValue "Toc".toList = some v.toc
  reh : rdata.getPropertyValue "Reh".toList = some v.reh
  eli : rdata.getPropertyValue "Eli".toList = some v.eli
  npr : rdata.getPropertyValue "NPr".toList = some v.npr

/-- Each of the five counters follows its own text. -/
structure DogTexts.PerField (v : DogTexts) (s s' : Status) : Prop where
  faults : FollowsText v.flt s.faults s'.faults
  touchs : FollowsText v.toc s.touchs s'.touchs
  refusals : FollowsText v.reh s.refusals s'.refusals
  eliminated : FollowsText v.eli s.eliminated s'.eliminated
  notpresent : FollowsText v.npr s.notpresent s'.notpresent

/-- What the test on the faults does with `notpresent` is what its own text asks for. -/
def DogTexts.NprAgrees (v : DogTexts) (s : Status) : Prop :=
  if v.flt = "-1".toList then v.npr = "-1".toList ∨ atoi v.npr = s.notpresent
  else v.npr = "-1".toList → s.notpresent = -1

/-- The other properties of a call that are read as numbers are there. -/
def CallComplete (rdata : Json) : Prop :=
  ∀ name ∈ ["Drs".toList, "Dog".toList, "Eqp".toList], (rdata.getPropertyValue name).isSome

/-- A call with these properties is read as it stands, with a turn or without. -/
lemma callValues_complete {v : DogTexts} {rdata : Json} (hv : v.In rdata)
    (hcomplete : CallComplete rdata) :
    ∃ c, callValues libcNull rdata = some c ∧
      c.sent = ⟨sentValue v.flt, sentValue v.toc, sentValue v.reh, sentValue v.eli⟩ ∧
      c.notpresent = if v.flt = "-1".toList then none else some (atoi v.npr) := by
  simp only [CallComplete, List.forall_mem_cons, Option.isSome_iff_exists] at hcomplete
  obtain ⟨⟨drs, hdrs⟩, ⟨dog, hdog⟩, ⟨eqp, heqp⟩, -⟩ := hcomplete
  unfold callValues sentCounters
  rw [hdrs, hdog, heqp, hv.flt, hv.toc, hv.reh, hv.eli, hv.npr, printPointer_libcNull]
  simp only [Option.bind_eq_bind, Option.bind_some, Option.pure_def]
  by_cases hflt : v.flt = "-1".toList
  · have hsent : sentValue v.flt = none := if_pos hflt
    rw [hsent]
    exact ⟨_, rfl, rfl, (if_pos hflt).symm⟩
  · have hsent : sentValue v.flt = some (atoi v.flt) := if_neg hflt
    rw [hsent]
    exact ⟨_, rfl, rfl, (if_neg hflt).symm⟩

/-- A call that is read has these properties. -/
lemma callComplete_of_callValues {null : Option CString} {rdata : Json} {c : Call}
    (h : callValues null rdata = some c) : CallComplete rdata := by
  obtain ⟨drs, hdrs, h⟩ := Option.bind_eq_some_iff.mp h
  obtain ⟨dog, hdog, h⟩ := Option.bind_eq_some_iff.mp h
  obtain ⟨eqp, heqp, -⟩ := Option.bind_eq_some_iff.mp h
  simp only [CallComplete, List.forall_mem_cons, hdrs, hdog, heqp]
  simp

/-- The test on the faults stands in for the test on `NPr` exactly if both texts agree. -/
lemma nprAgrees_iff (v : DogTexts) (s : Status) :
    v.NprAgrees s ↔
      (if v.flt = "-1".toList then s.notpresent else atoi v.npr) = keepOr s.notpresent v.npr := by
  have hminus : atoi "-1".toList = -1 := by decide
  unfold DogTexts.NprAgrees keepOr
  by_cases hflt : v.flt = "-1".toList
  · rw [if_pos hflt, if_pos hflt]
    by_cases hnpr : v.npr = "-1".toList
    · rw [if_pos hnpr]
      exact iff_of_true (.inl hnpr) rfl
    · rw [if_neg hnpr, or_iff_right hnpr]
      exact eq_comm
  · rw [if_neg hflt, if_neg hflt]
    by_cases hnpr : v.npr = "-1".toList
    · rw [if_pos hnpr, hnpr, hminus, forall_prop_of_true rfl]
      exact eq_comm
    · rw [if_neg hnpr]
      exact iff_of_true (fun h => absurd h hnpr) rfl

/-- **When a call updates each field by itself.** The texts `Flt` and `NPr` are both -1 or both
not, or the value of `notpresent` is the same either way; and the three properties that are read
as numbers before these five are there. -/
theorem call_perField_iff (jsonCreate : JsonCreate) (config : Configuration)
    (datastr : CString) (timestamp : ℤ) (rdata : Json) (v : DogTexts)
    (hjson : jsonCreate datastr 128 = some rdata)
    (hforeign : rdata.getPropertyValue "SessionName".toList ≠ some (getSessionName config))
    (htype : rdata.getPropertyValue "Type".toList = some "llamada".toList) (hv : v.In rdata) :
    (∃ config' result timestamp', processEventData libcNull jsonCreate config datastr timestamp =
        some (config', result, timestamp') ∧ v.PerField config.status config'.status) ↔
      CallComplete rdata ∧ v.NprAgrees config.status := by
  have hfind : findEventType "llamada".toList = some .llamada := by decide
  have hupdate : treeUpdate libcNull (getSessionName config) rdata =
      (callValues libcNull rdata).map .call := by
    unfold treeUpdate
    rw [if_neg hforeign, htype, Option.bind_some, hfind]
    rfl
  rw [processEventData_eq hjson, processEventTree_eq, hupdate, nprAgrees_iff]
  constructor
  · rintro ⟨config', result, timestamp', h, hfields⟩
    rw [Option.map_map, Option.map_map] at h
    obtain ⟨c, hc, h⟩ := Option.map_eq_some_iff.mp h
    have hcomplete := callComplete_of_callValues hc
    obtain ⟨_, hc', -, hnpr⟩ := callValues_complete hv hcomplete
    cases hc.symm.trans hc'
    cases h
    have hnotpresent := followsText_iff.mp hfields.notpresent
    refine ⟨hcomplete, Eq.trans ?_ hnotpresent⟩
    simp only [Update.apply, Call.apply, hnpr]
    split <;> rfl
  · rintro ⟨hcomplete, hagrees⟩
    obtain ⟨c, hc, hsent, hnpr⟩ := callValues_complete hv hcomplete
    rw [hc]
    refine ⟨_, _, _, rfl, ?_, ?_, ?_, ?_, ?_⟩ <;>
      simp only [followsText_iff, Update.apply, Call.apply, hsent, keepOr_eq]
    rw [← keepOr_eq, ← hagrees, hnpr]
    split <;> rfl

/-- The fields of a call with these texts for the faults and for `NPr`, zero for all else, and no
turn. -/
def callFields (flt npr : CString) : List (CString × CString) :=
  [("Type".toList, "llamada".toList), ("Drs".toList, "0".toList), ("Dog".toList, "0".toList),
    ("Eqp".toList, "0".toList), ("Flt".toList, flt), ("Toc".toList, "0".toList),
    ("Reh".toList, "0".toList), ("Eli".toList, "0".toList), ("NPr".toList, npr)]

lemma in_callFields (flt npr : CString) :
    DogTexts.In ⟨flt, "0".toList, "0".toList, "0".toList, npr⟩ (.ofFields (callFields flt npr)) :=
  ⟨rfl, rfl, rfl, rfl, rfl⟩

/-- A dog with two faults is called that is not present and has one. -/
theorem call_perField_iff_one :
    let config := { defaultOptions with status := { defaultOptions.status with faults := 2 } }
    let v : DogTexts := ⟨"1".toList, "0".toList, "0".toList, "0".toList, "1".toList⟩
    (∃ config' result timestamp', processEventData libcNull TinyJson.jsonCreate config
        (fieldsText (callFields "1".toList "1".toList)) 0 = some (config', result, timestamp') ∧
        v.PerField config.status config'.status) ↔
      CallComplete (.ofFields (callFields "1".toList "1".toList)) ∧ v.NprAgrees config.status :=
  call_perField_iff _ _ _ _ _ _ (TinyJson.jsonCreate_ofFields (by decide) (by decide))
    (by decide) rfl
    (in_callFields _ _)

/-- A dog that is not present and whose faults stay as they are remains present. -/
theorem call_not_perField :
    ¬ ∀ (config : Configuration) (datastr : CString) (timestamp : ℤ) (rdata : Json)
        (v : DogTexts), TinyJson.jsonCreate datastr 128 = some rdata →
      rdata.getPropertyValue "SessionName".toList ≠ some (getSessionName config) →
      rdata.getPropertyValue "Type".toList = some "llamada".toList → v.In rdata →
      ∃ config' result timestamp', processEventData libcNull TinyJson.jsonCreate config datastr
        timestamp = some (config', result, timestamp') ∧
        v.PerField config.status config'.status := by
  intro h
  have hjson : TinyJson.jsonCreate (fieldsText (callFields "-1".toList "1".toList)) 128 =
      some (.ofFields (callFields "-1".toList "1".toList)) :=
    TinyJson.jsonCreate_ofFields (by decide) (by decide)
  obtain ⟨config', result, timestamp', hdata, hfields⟩ := h defaultOptions _ 0 _ _ hjson
    (by decide) rfl (in_callFields "-1".toList "1".toList)
  rw [processEventData_eq hjson] at hdata
  cases hdata
  have hnotpresent := hfields.notpresent.taken (by decide)
  revert hnotpresent
  decide

/-! ## `datos` and `crono_dat` -/

/-- The value sent last, or the initial one if every text is `-1`. -/
def lastSent (initial : ℤ) (texts : List CString) : ℤ :=
  ((texts.filter fun text => text ≠ "-1".toList).getLast?.map atoi).getD initial

lemma lastSent_append (initial : ℤ) (texts : List CString) (text : CString) :
    lastSent initial (texts ++ [text]) = keepOr (lastSent initial texts) text := by
  unfold lastSent keepOr
  by_cases h : text = "-1".toList
  · rw [List.filter_append, if_pos h, List.filter_cons_of_neg (by simpa using h),
      List.filter_nil, List.append_nil]
  · rw [List.filter_append, if_neg h, List.filter_cons_of_pos (by simpa using h),
      List.filter_nil, List.getLast?_concat]
    rfl

/-- The data of an event, with the texts in it. -/
structure DogEvent where
  datastr : CString
  texts : DogTexts

/-- The data is that of a `datos` or `crono_dat` of another instance. -/
def DogEvent.Decodes (jsonCreate : JsonCreate) (name : CString) (e : DogEvent) : Prop :=
  ∃ rdata, jsonCreate e.datastr 128 = some rdata ∧
    rdata.getPropertyValue "SessionName".toList ≠ some name ∧
    (∃ typestr ∈ ["datos".toList, "crono_dat".toList],
      rdata.getPropertyValue "Type".toList = some typestr) ∧ e.texts.In rdata

/-- An event and then, if it gives one, its command. -/
def eventStep (jsonCreate : JsonCreate) (link : Link) (datastr : CString) : Option Link :=
  (processEventData libcNull jsonCreate link.config datastr link.timestamp).bind fun r =>
    let link : Link := { link with config := r.1, timestamp := r.2.2 }
    match r.2.1 with
    | none => some link
    | some cmd => execCommand link cmd

/-- The link, and what has been received. -/
structure MergeLog where
  link : Link
  received : List DogTexts

def mergeStep (jsonCreate : JsonCreate) (s : MergeLog) (e : DogEvent) : Option MergeLog :=
  (eventStep jsonCreate s.link e.datastr).map fun link => ⟨link, s.received ++ [e.texts]⟩

/-- The counters are the values received last. -/
structure MergeLog.Merged (initial : Status) (s : MergeLog) : Prop where
  faults : s.link.config.status.faults =
    lastSent initial.faults (s.received.map DogTexts.flt)
  touchs : s.link.config.status.touchs =
    lastSent initial.touchs (s.received.map DogTexts.toc)
  refusals : s.link.config.status.refusals =
    lastSent initial.refusals (s.received.map DogTexts.reh)
  eliminated : s.link.config.status.eliminated =
    lastSent initial.eliminated (s.received.map DogTexts.eli)

/-- The event leaves the touches as they are, its sum fits an `int`, and the elimination is 0
or 1. -/
structure MergeLog.Splits (s : MergeLog) (e : DogEvent) : Prop where
  touchs : keepOr s.link.config.status.touchs e.texts.toc = s.link.config.status.touchs
  sum : IsInt (keepOr s.link.config.status.faults e.texts.flt + s.link.config.status.touchs)
  eliminated : keepOr s.link.config.status.eliminated e.texts.eli = 0 ∨
    keepOr s.link.config.status.eliminated e.texts.eli = 1

/-- The counters that go through a `data` command are values of an `int`. -/
structure Status.CountersInt (s : Status) : Prop where
  faults : IsInt s.faults
  touchs : IsInt s.touchs
  refusals : IsInt s.refusals
  eliminated : IsInt s.eliminated

lemma isInt_keepOr {old : ℤ} (h : IsInt old) (text : CString) : IsInt (keepOr old text) := by
  unfold keepOr
  split
  · exact h
  · exact atoi_bounds text

lemma isInt_lastSent {initial : ℤ} (h : IsInt initial) (texts : List CString) :
    IsInt (lastSent initial texts) := by
  induction texts using List.reverseRecOn with
  | nil => exact h
  | append_singleton texts text ih =>
    rw [lastSent_append]
    exact isInt_keepOr ih text

/-- The argument of the command `datos` and `crono_dat` give. -/
def DogTexts.dataArg (v : DogTexts) (s : Status) : DataArg where
  faults := keepOr s.faults v.flt + keepOr s.touchs v.toc
  refusals := keepOr s.refusals v.reh
  eliminated := keepOr s.eliminated v.eli

/-- The event in the data of a `datos` or `crono_dat`. -/
lemma treeUpdate_datos {name : CString} {rdata : Json} {v : DogTexts}
    (hforeign : rdata.getPropertyValue "SessionName".toList ≠ some name)
    (htype : ∃ typestr ∈ ["datos".toList, "crono_dat".toList],
      rdata.getPropertyValue "Type".toList = some typestr) (hv : v.In rdata) :
    treeUpdate libcNull name rdata =
      some (.dog ⟨sentValue v.flt, sentValue v.toc, sentValue v.reh, sentValue v.eli⟩) := by
  have hupdate : eventUpdate libcNull .datos rdata =
      some (.dog ⟨sentValue v.flt, sentValue v.toc, sentValue v.reh, sentValue v.eli⟩) := by
    simp only [eventUpdate, sentCounters]
    rw [hv.flt, hv.toc, hv.reh, hv.eli, hv.npr]
    rfl
  obtain ⟨typestr, hmem, htype⟩ := htype
  rw [treeUpdate, if_neg hforeign, htype, Option.bind_some]
  simp only [List.mem_cons, List.not_mem_nil, or_false] at hmem
  rcases hmem with rfl | rfl
  · have hfind : findEventType "datos".toList = some .datos := by decide
    rw [hfind]
    exact hupdate
  · have hfind : findEventType "crono_dat".toList = some .cronoDat := by decide
    rw [hfind]
    exact hupdate

/-- What an event does to the status of the instance that receives it. -/
lemma eventStep_dog {jsonCreate : JsonCreate} {link : Link} {e : DogEvent}
    (he : e.Decodes jsonCreate (getSessionName link.config))
    (hint : link.config.status.CountersInt) :
    ∃ link', eventStep jsonCreate link e.datastr = some link' ∧
      getSessionName link'.config = getSessionName link.config ∧
      link'.config.status =
        DataArg.apply ⟨atoi (printInt (e.texts.dataArg link.config.status).faults),
          (e.texts.dataArg link.config.status).refusals,
          (e.texts.dataArg link.config.status).eliminated⟩ link.config.status := by
  obtain ⟨rdata, hjson, hforeign, htype, hv⟩ := he
  set s := link.config.status with hs
  set u := Update.dog ⟨sentValue e.texts.flt, sentValue e.texts.toc, sentValue e.texts.reh,
    sentValue e.texts.eli⟩ with hu
  set d := e.texts.dataArg s with hd
  have htree : treeUpdate libcNull (getSessionName link.config) rdata = some u :=
    treeUpdate_datos hforeign htype hv
  have hrest : u.rest s = ' ' :: d.text ++ "\n".toList := by
    simp [hu, hd, Update.rest, Sent.dataArg, DogTexts.dataArg, DataArg.text, keepOr_eq]
  -- every number of the command but the sum of faults and touches is an `int`
  have hf := isInt_keepOr hint.faults e.texts.flt
  have ht := isInt_keepOr hint.touchs e.texts.toc
  have hr : IsInt d.refusals := isInt_keepOr hint.refusals e.texts.reh
  have he : IsInt d.eliminated := isInt_keepOr hint.eliminated e.texts.eli
  have hsum : -10 ^ 10 < d.faults ∧ d.faults < 10 ^ 10 := by
    have hfaults : d.faults = keepOr s.faults e.texts.flt + keepOr s.touchs e.texts.toc := rfl
    unfold IsInt at hf ht
    omega
  have heffect : u.effect s = some (DataArg.apply ⟨atoi (printInt d.faults), d.refusals,
      d.eliminated⟩) := by
    have hcommand : u.command = some .data := rfl
    rw [Update.effect, hcommand, Option.bind_some, hrest, restTokens_text hsum hr he]
    dsimp only [List.length_singleton]
    rw [if_pos (by decide)]
    simp only [commandEffect, List.head?_cons, parseDataArg_text, Option.map_some,
      (atoi_printInt_iff _).mpr hr, (atoi_printInt_iff _).mpr he]
  have hcommand : (u.text s).take 255 ≠ [] := take_text_ne_nil (c := .data) rfl s
  have hstep : eventStep jsonCreate link e.datastr =
      execCommand { link with timestamp := eventTimestamp rdata link.timestamp }
        ((u.text s).take 255) := by
    rw [eventStep, processEventData_eq hjson, processEventTree_eq, htree]
    simp only [Option.map_some, Option.bind_some, ← hs, if_neg hcommand]
    rfl
  rw [hstep, execCommand_eq (c := .data) rfl rfl, heffect]
  exact ⟨_, rfl, rfl, rfl⟩

/-- A flag is stored as it is if it is 0 or 1. -/
lemma flag_eq_self_iff {x : ℤ} [Decidable (x = 0)] :
    (if x = 0 then 0 else 1) = x ↔ x = 0 ∨ x = 1 := by
  split
  · next h => simp [h]
  · next h =>
    rw [or_iff_right h]
    exact eq_comm

/-- While the counters are the values received last, an event keeps them so exactly if main can
take the sum apart. -/
lemma mergeStep_splits {jsonCreate : JsonCreate} {initial : Status} {s : MergeLog}
    {e : DogEvent} (he : e.Decodes jsonCreate (getSessionName s.link.config))
    (hinitial : initial.CountersInt) (hs : s.Merged initial) :
    ∃ t, mergeStep jsonCreate s e = some t ∧
      getSessionName t.link.config = getSessionName s.link.config ∧
      (t.Merged initial ↔ s.Splits e) := by
  have hint : s.link.config.status.CountersInt := by
    refine ⟨?_, ?_, ?_, ?_⟩
    · rw [hs.faults]
      exact isInt_lastSent hinitial.faults _
    · rw [hs.touchs]
      exact isInt_lastSent hinitial.touchs _
    · rw [hs.refusals]
      exact isInt_lastSent hinitial.refusals _
    · rw [hs.eliminated]
      exact isInt_lastSent hinitial.eliminated _
  obtain ⟨link', hstep, hname, hstatus⟩ := eventStep_dog he hint
  refine ⟨⟨link', s.received ++ [e.texts]⟩, by rw [mergeStep, hstep]; rfl, hname, ?_⟩
  constructor
  · intro h
    have hfaults := h.faults
    have htouchs := h.touchs
    have heliminated := h.eliminated
    simp only [List.map_append, List.map_cons, List.map_nil, lastSent_append, ← hs.faults,
      ← hs.touchs, ← hs.eliminated, hstatus, DataArg.apply, DogTexts.dataArg]
      at hfaults htouchs heliminated
    rw [← htouchs] at hfaults
    exact ⟨htouchs.symm, (atoi_printInt_iff _).mp (by omega), flag_eq_self_iff.mp heliminated⟩
  · intro h
    have hsum := (atoi_printInt_iff _).mpr h.sum
    refine ⟨?_, ?_, ?_, ?_⟩ <;>
      simp only [List.map_append, List.map_cons, List.map_nil, lastSent_append, ← hs.faults,
        ← hs.touchs, ← hs.refusals, ← hs.eliminated, hstatus, DataArg.apply, DogTexts.dataArg]
    · rw [h.touchs, hsum]
      omega
    · exact h.touchs.symm
    · exact flag_eq_self_iff.mpr h.eliminated

/-- **When dog data merges field by field.** In a sequence of `datos` and `crono_dat` of other
instances, each carried out before the next, the counters are all along the values received
last if and only if each event leaves the touches as they are, its sum with them fits an `int`,
and its elimination is 0 or 1. -/
theorem merged_iff_along (jsonCreate : JsonCreate) (link : Link) (events : List DogEvent)
    (hinitial : link.config.status.CountersInt)
    (hevents : ∀ e ∈ events, e.Decodes jsonCreate (getSessionName link.config)) :
    Throughout (mergeStep jsonCreate) (MergeLog.Merged link.config.status) ⟨link, []⟩ events ↔
      Along (mergeStep jsonCreate) MergeLog.Splits ⟨link, []⟩ events := by
  have hstart : MergeLog.Merged link.config.status ⟨link, []⟩ := ⟨rfl, rfl, rfl, rfl⟩
  refine throughout_iff_along (I := MergeLog.Merged link.config.status) (C := MergeLog.Splits)
    (J := fun s => getSessionName s.link.config = getSessionName link.config)
    (P := fun e => e.Decodes jsonCreate (getSessionName link.config)) ?_ rfl hstart hevents
  intro s e hname hs he
  obtain ⟨t, ht, hname', hiff⟩ := mergeStep_splits (hname ▸ he) hinitial hs
  exact ⟨t, ht, hname'.trans hname, hiff⟩

/-- The fields of a `datos` or `crono_dat` with these texts. -/
def dogFields (typestr : CString) (v : DogTexts) : List (CString × CString) :=
  [("Type".toList, typestr), ("Flt".toList, v.flt), ("Toc".toList, v.toc), ("Reh".toList, v.reh),
    ("Eli".toList, v.eli), ("NPr".toList, v.npr)]

/-- The event with the text of these fields. -/
def dogEvent (typestr : CString) (v : DogTexts) : DogEvent :=
  ⟨fieldsText (dogFields typestr v), v⟩

lemma decodes_dogEvent {typestr : CString} {v : DogTexts}
    (hplain : TinyJson.plainFields (dogFields typestr v) = true)
    (htype : typestr ∈ ["datos".toList, "crono_dat".toList]) (name : CString) :
    (dogEvent typestr v).Decodes TinyJson.jsonCreate name :=
  ⟨_, TinyJson.jsonCreate_ofFields hplain (show 6 < 128 by decide),
    Option.some_ne_none _ |>.symm, ⟨typestr, htype, rfl⟩, rfl, rfl, rfl, rfl, rfl⟩

/-- A dog with three faults and a touch. -/
def dogLink : Link :=
  { startLink with
    config := { defaultOptions with
      status := { defaultOptions.status with faults := 3, touchs := 1 } } }

/-- Two faults instead of three, then the touch again and a refusal. -/
def dogEvents : List DogEvent :=
  [dogEvent "datos".toList
      ⟨"2".toList, "-1".toList, "-1".toList, "-1".toList, "-1".toList⟩,
    dogEvent "crono_dat".toList
      ⟨"-1".toList, "1".toList, "1".toList, "0".toList, "0".toList⟩]

lemma decodes_dogEvents (name : CString) :
    ∀ e ∈ dogEvents, e.Decodes TinyJson.jsonCreate name :=
  List.forall_mem_cons.mpr ⟨decodes_dogEvent (by decide) (by decide) name,
    List.forall_mem_singleton.mpr (decodes_dogEvent (by decide) (by decide) name)⟩

/-- Every touch sent is one that main has already. -/
theorem merged_iff_along_two_faults :
    Throughout (mergeStep TinyJson.jsonCreate) (MergeLog.Merged dogLink.config.status)
        ⟨dogLink, []⟩ dogEvents ↔
      Along (mergeStep TinyJson.jsonCreate) MergeLog.Splits ⟨dogLink, []⟩ dogEvents := by
  refine merged_iff_along _ dogLink _ ?_ (decodes_dogEvents _)
  refine ⟨?_, ?_, ?_, ?_⟩ <;> decide

/-- One touch sent to an instance that has none becomes a fault. -/
theorem dogData_not_merged :
    ¬ ∀ (link : Link) (events : List DogEvent), link.config.status.CountersInt →
      (∀ e ∈ events, e.Decodes TinyJson.jsonCreate (getSessionName link.config)) →
      Throughout (mergeStep TinyJson.jsonCreate) (MergeLog.Merged link.config.status) ⟨link, []⟩
        events := by
  intro h
  set e := dogEvent "datos".toList ⟨"0".toList, "1".toList, "0".toList, "0".toList, "0".toList⟩
    with he
  obtain ⟨-, t, hstep, hmerged⟩ := h startLink [e]
    (by refine ⟨?_, ?_, ?_, ?_⟩ <;> decide)
    (List.forall_mem_singleton.mpr (decodes_dogEvent (by decide) (by decide) _))
  have htouchs : (mergeStep TinyJson.jsonCreate ⟨startLink, []⟩ e).map
      (fun t => t.link.config.status.touchs) = some 0 := by
    rw [he]
    decide +kernel
  have hreceived : t.received = [e.texts] := by
    obtain ⟨link, -, rfl⟩ := Option.map_eq_some_iff.mp hstep
    rfl
  rw [hstep, Option.map_some, hmerged.touchs, hreceived] at htouchs
  revert htouchs
  decide

end SerialChrono
