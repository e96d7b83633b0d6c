import SerialChrono.MainLoop
import SerialChrono.Managers.Serial
import SerialChrono.Managers.Ajax
import Mathlib.Data.List.ReduceOption

/-!
# How the managers read the number of a datagram

The commands `start`, `walk` and `down` have one number: a timestamp or a number of seconds.
Main and every manager read it from the tokens on their own, with their own default and their
own test on how many tokens there are: main takes the third token of a `start` whatever
follows it, and of a `walk` or a `down` only if it is the last; the web manager wants exactly
three tokens of all three commands; the serial manager passes on everything it gets.

`managers_agree_iff` says for which datagrams the managers that are not the source all get the
number main uses.
-/

namespace SerialChrono

open CText

/-! ## The number each one reads -/

/-- The seconds of a `walk`, of which `main_mgr_walk` makes minutes. -/
def walkSeconds (tokens : Tokens) (ntokens : ℕ) : Option ℤ :=
  if ntokens = 3 then tokens[2]?.map atoi else some (7 * 60)

/-- The number main uses; `config` is the configuration its handler leaves. -/
def mainValue (c : Command) (config : Configuration) (tokens : Tokens) (ntokens : ℕ) :
    Option ℤ :=
  match c with
  | .start => some config.status.startTime
  | .walk => walkSeconds tokens ntokens
  | .down => downSeconds tokens ntokens
  | _ => none

/-- The number in the message the web manager queues. -/
def webValue (c : Command) (config : Configuration) (tokens : Tokens) (ntokens : ℕ) :
    Option ℤ := do
  let handler ← webMgrEntries c
  let call ← handler config tokens ntokens
  let (_, text) ← cutAt ' ' (← call.queued)
  return textInt text

/-- The number in the tokens the driver of the chronometer receives. -/
def serialValue (c : Command) (tokens : Tokens) (ntokens : ℕ) : Option ℤ := do
  let handler ← serialMgrEntries c
  match handler tokens ntokens with
  | .returns _ => none
  | .moduleWrite tokens _ => tokens[2]?.map textInt

/-- The number in the event the ajax manager publishes, less one for a timestamp. -/
def ajaxValue (c : Command) (config : Configuration) (tokens : Tokens) (ntokens : ℕ) :
    Option ℤ := do
  let handler ← ajaxMgrEntries c
  match ← handler config tokens ntokens with
  | .returns _ => none
  | .putEvent e =>
    match c with
    | .start => ((extraParams e.data).lookup "Value".toList).map fun value => textInt value - 1
    | .walk => ((extraParams e.data).lookup "start".toList).map textInt
    | .down => ((extraParams e.data).lookup "Value".toList).map textInt
    | _ => none

/-- The token array the threads after the serial manager find. -/
def tokensAfterSerial (c : Command) (tokens : Tokens) : Tokens :=
  match serialMgrEntries c with
  | some handler => (handler tokens tokens.length).tokensAfter tokens
  | none => tokens

/-- The numbers the managers read from a dispatched datagram; the source reads none. -/
def managerValues (c : Command) (config : Configuration) (tokens : Tokens) : List ℤ :=
  [serialValue c tokens tokens.length,
    webValue c config (tokensAfterSerial c tokens) tokens.length,
    ajaxValue c config (tokensAfterSerial c tokens) tokens.length].reduceOption

def Command.timed : Command → Bool
  | .start | .walk | .down => true
  | _ => false

/-- If the datagram is an accepted `start`, `walk` or `down`, the managers that are not its
source all read the number main uses. -/
def ManagersAgree (config : Configuration) (buffer : CString) : Prop :=
  ∀ c tokens config', mainFront config buffer = some (.dispatch c tokens config') →
    c.timed = true → ∀ v ∈ managerValues c config' tokens,
      mainValue c config' tokens tokens.length = some v

/-! ## When they agree -/

/-- The number of the text fits in a `long`. -/
def InLong (a : CString) : Prop := longMin ≤ textInt a ∧ textInt a ≤ longMax

/-- The number of the text fits in an `int`. -/
def InInt (a : CString) : Prop := -2 ^ 31 ≤ textInt a ∧ textInt a < 2 ^ 31

/-- The arguments all the managers read alike: none; one, in range and not negative where it is
published; or several, of which the first is the default that some managers use instead. -/
def ReadAlike (source : CString) : Command → (args : Tokens) → Prop
  | .start, [a] => InLong a ∧ (-1 ≤ textInt a ∨ source = scAjaxsrv)
  | .start, a :: _ :: _ => textInt a = 0 ∨ source = scWebsrv ∧ InLong a ∧ -1 ≤ textInt a
  | .walk, [a] => InInt a ∧ (0 ≤ textInt a ∨ source = scAjaxsrv)
  | .walk, a :: _ :: _ => textInt a = 420 ∨ source = scSerial
  | .down, [a] => InInt a
  | .down, a :: _ :: _ => textInt a = 15 ∨ source = scSerial
  | _, _ => True

lemma strtol_eq_textInt_iff (a : CString) : strtol a = textInt a ↔ InLong a := by
  unfold strtol InLong longMin longMax
  omega

lemma strtol_eq_zero_iff (a : CString) : strtol a = 0 ↔ textInt a = 0 := by
  unfold strtol longMin longMax
  omega

lemma atoi_eq_textInt_iff (a : CString) : atoi a = textInt a ↔ InInt a := by
  constructor
  · intro h
    have := atoi_bounds a
    rwa [h] at this
  · rintro ⟨hlo, hhi⟩
    have hrange : strtol a = textInt a :=
      strtol_of_range (by unfold longMin; omega) (by unfold longMax; omega)
    rw [atoi, hrange, toInt32_eq_self hlo hhi]

/-- The number a reader `f` finds in the only argument; the default if there is not just one. -/
def onlyArg (f : CString → ℤ) (dflt : ℤ) : Tokens → ℤ
  | [a] => f a
  | _ => dflt

/-- The default of a timed command, as text. -/
def Command.dflt : Command → CString
  | .start => "0".toList
  | .walk => "420".toList
  | .down => "15".toList
  | _ => []

section

variable {c : Command} (hc : c.timed = true) (config : Configuration) (source : CString)
  (args : Tokens)
include hc

lemma timed_cases : c = .start ∨ c = .walk ∨ c = .down := by
  cases c <;> simp [Command.timed] at hc ⊢

lemma serialMgrEntries_timed : serialMgrEntries c = some (serialMgrDefault c.dflt) := by
  rcases timed_cases hc with rfl | rfl | rfl <;> rfl

lemma webMgrEntries_timed :
    webMgrEntries c = some (webMgrSendDefault (c.cmd ++ ' ' :: c.dflt)) := by
  rcases timed_cases hc with rfl | rfl | rfl <;> rfl

/-- The serial manager reads the first argument, however many there are. -/
lemma serialValue_eq :
    serialValue c (source :: c.cmd :: args) (args.length + 2) =
      if source = scSerial then none
      else some ((args.head?.map textInt).getD (textInt c.dflt)) := by
  unfold serialValue
  simp only [serialMgrEntries_timed hc, Option.bind_eq_bind, Option.bind_some, serialMgrDefault,
    fromSource, List.head?_cons, Option.some_beq_some, beq_iff_eq]
  by_cases hs : source = scSerial
  · simp [hs]
  · cases args <;> simp [hs]

/-- The serial manager changes the token array only where there was no argument. -/
lemma tokensAfterSerial_eq :
    ∃ args', tokensAfterSerial c (source :: c.cmd :: args) = source :: c.cmd :: args' ∧
      (args ≠ [] → args' = args) := by
  simp only [tokensAfterSerial, serialMgrEntries_timed hc, serialMgrDefault]
  split
  · exact ⟨args, rfl, fun _ => rfl⟩
  split
  · next hlen => exact ⟨[c.dflt], by cases args <;> simp_all [SerialCall.tokensAfter]⟩
  · exact ⟨args, rfl, fun _ => rfl⟩

/-- The web manager reads the argument if there is exactly one. -/
lemma webValue_eq :
    webValue c config (tokensAfterSerial c (source :: c.cmd :: args)) (args.length + 2) =
      if source = scWebsrv then none
      else some (onlyArg textInt (textInt c.dflt) args) := by
  have hblank : ' ' ∉ c.cmd := by
    rcases timed_cases hc with rfl | rfl | rfl <;> decide
  obtain ⟨args', htokens, hargs⟩ := tokensAfterSerial_eq hc source args
  simp only [webValue, htokens, webMgrEntries_timed hc, Option.bind_eq_bind, Option.bind_some,
    webMgrSendDefault, webMgrSendMsg, fromSource, List.head?_cons, Option.some_beq_some,
    beq_iff_eq]
  by_cases hs : source = scWebsrv
  · simp [hs, WebCall.ignored]
  · match args with
    | [] => simp [hs, WebCall.send, cutAt_append hblank, onlyArg]
    | [a] =>
      rw [hargs (by simp)]
      simp [hs, WebCall.send, joinTokens, cutAt_append hblank, onlyArg]
    | a :: b :: rest => simp [hs, WebCall.send, cutAt_append hblank, onlyArg]

end

section

variable (config : Configuration) (source : CString) (args : Tokens)

/-- The ajax manager publishes the start main has recorded. -/
lemma ajaxValue_start :
    ajaxValue .start config (tokensAfterSerial .start (source :: Command.start.cmd :: args))
      (args.length + 2) =
      if source = scAjaxsrv then none
      else some ((toUInt64 (1 + config.status.startTime) : ℤ) - 1) := by
  obtain ⟨args', htokens, -⟩ := tokensAfterSerial_eq (c := .start) rfl source args
  rw [htokens]
  by_cases hs : source = scAjaxsrv
  · simp [ajaxValue, ajaxMgrEntries, ajaxMgrStart, ajaxMgrStamp, ajaxMgrPut, fromSource, hs]
  · simp [ajaxValue, ajaxMgrEntries, ajaxMgrStart, ajaxMgrStamp, ajaxMgrPut, fromSource, hs,
      extraParams, ExtraData.ofValue, textInt_printULong]

lemma ajaxValue_walk :
    ajaxValue .walk config (tokensAfterSerial .walk (source :: Command.walk.cmd :: args))
      (args.length + 2) =
      if source = scAjaxsrv then none
      else some (onlyArg (fun a => (toUInt64 (strtol a) : ℤ)) 420 args) := by
  obtain ⟨args', htokens, hargs⟩ := tokensAfterSerial_eq (c := .walk) rfl source args
  rw [htokens]
  by_cases hs : source = scAjaxsrv
  · simp [ajaxValue, ajaxMgrEntries, ajaxMgrWalk, fromSource, hs]
  · match args with
    | [a] =>
      rw [hargs (by simp)]
      simp [ajaxValue, ajaxMgrEntries, ajaxMgrWalk, ajaxMgrPut, fromSource, hs, extraParams,
        textInt_printULong, atol, List.lookup_cons, onlyArg]
    | [] | a :: b :: rest =>
      have h420 : textInt (printULong 420) = 420 := by decide
      simp [ajaxValue, ajaxMgrEntries, ajaxMgrWalk, ajaxMgrPut, fromSource, hs, extraParams, h420,
        List.lookup_cons, onlyArg]

lemma ajaxValue_down :
    ajaxValue .down config (tokensAfterSerial .down (source :: Command.down.cmd :: args))
      (args.length + 2) =
      if source = scAjaxsrv then none
      else some (onlyArg textInt 15 args) := by
  obtain ⟨args', htokens, hargs⟩ := tokensAfterSerial_eq (c := .down) rfl source args
  rw [htokens]
  by_cases hs : source = scAjaxsrv
  · simp [ajaxValue, ajaxMgrEntries, ajaxMgrDown, fromSource, hs]
  · match args with
    | [a] =>
      rw [hargs (by simp)]
      simp [ajaxValue, ajaxMgrEntries, ajaxMgrDown, ajaxMgrPut, fromSource, hs, extraParams,
        ExtraData.ofValue, onlyArg]
    | [] | a :: b :: rest =>
      have h15 : textInt ['1', '5'] = 15 := by decide
      simp [ajaxValue, ajaxMgrEntries, ajaxMgrDown, ajaxMgrPut, fromSource, hs, extraParams,
        ExtraData.ofValue, h15, onlyArg]

end

lemma mainValue_start {config config' : Configuration} {source : CString} {args : Tokens}
    {res : ℤ}
    (h : mainMgrEntries .start config (source :: Command.start.cmd :: args) (args.length + 2) =
      some (res, config')) :
    config'.status.startTime = (args.head?.map strtol).getD 0 := by
  cases args <;> simp [mainMgrEntries, mainMgrStart] at h <;> simp [← h.2]

lemma mainValue_walk (config : Configuration) (source : CString) (args : Tokens) :
    mainValue .walk config (source :: Command.walk.cmd :: args) (args.length + 2) =
      some (onlyArg atoi 420 args) := by
  match args with
  | [] | [_] | _ :: _ :: _ => simp [mainValue, walkSeconds, onlyArg]

lemma mainValue_down (config : Configuration) (source : CString) (args : Tokens) :
    mainValue .down config (source :: Command.down.cmd :: args) (args.length + 2) =
      some (onlyArg atoi 15 args) := by
  match args with
  | [] | [_] | _ :: _ :: _ => simp [mainValue, downSeconds, onlyArg]

/-- The numbers the managers read are all `v`. -/
def AllRead (c : Command) (config : Configuration) (source : CString) (args : Tokens) (v : ℤ) :
    Prop :=
  ∀ w ∈ managerValues c config (source :: c.cmd :: args), v = w

/-- At least one of the serial and the web manager is not the source. -/
lemma allRead_iff {c : Command} (hc : c.timed = true) {config : Configuration}
    {source : CString} {args : Tokens} {x : ℤ}
    (hajax : ajaxValue c config (tokensAfterSerial c (source :: c.cmd :: args))
      (args.length + 2) = if source = scAjaxsrv then none else some x) (v : ℤ) :
    AllRead c config source args v ↔
      (source ≠ scSerial → v = (args.head?.map textInt).getD (textInt c.dflt)) ∧
      (source ≠ scWebsrv → v = onlyArg textInt (textInt c.dflt) args) ∧
      (source ≠ scAjaxsrv → v = x) := by
  have hlen : (source :: c.cmd :: args).length = args.length + 2 := rfl
  unfold AllRead managerValues
  rw [hlen, serialValue_eq hc, webValue_eq hc, hajax]
  simp only [List.reduceOption_mem_iff, List.mem_cons, List.not_mem_nil, or_false]
  constructor
  · intro h
    refine ⟨fun hs => h _ (Or.inl ?_), fun hs => h _ (Or.inr (Or.inl ?_)),
      fun hs => h _ (Or.inr (Or.inr ?_))⟩
    · rw [if_neg hs]
    · rw [if_neg hs]
    · rw [if_neg hs]
  · rintro ⟨hserial, hweb, hajax⟩ w (hw | hw | hw)
    · split at hw
      · cases hw
      · next hs => rw [Option.some.inj hw, hserial hs]
    · split at hw
      · cases hw
      · next hs => rw [Option.some.inj hw, hweb hs]
    · split at hw
      · cases hw
      · next hs => rw [Option.some.inj hw, hajax hs]

/-- Two managers cannot both be the source. -/
lemma either_of_ne {source s t : CString} (hne : s ≠ t) {p : Prop}
    (hs : source ≠ s → p) (ht : source ≠ t → p) : p := by
  by_cases h : source = s
  · exact ht (h ▸ hne)
  · exact hs h

/-- A timestamp is published one above exactly from -1 on. -/
lemma stamp_eq_iff {v : ℤ} (hv : v ≤ longMax) : v = (toUInt64 (1 + v) : ℤ) - 1 ↔ -1 ≤ v := by
  unfold toUInt64 longMax at *
  omega

lemma allRead_start_iff {config : Configuration} {source : CString} {args : Tokens}
    (hstart : config.status.startTime = (args.head?.map strtol).getD 0) :
    AllRead .start config source args config.status.startTime ↔ ReadAlike source .start args := by
  have hdflt : textInt Command.start.dflt = 0 := by decide
  have hajax := ajaxValue_start config source args
  rw [hstart] at hajax
  rw [allRead_iff rfl hajax, hstart, hdflt]
  match args with
  | [] => simp [ReadAlike, toUInt64, onlyArg]
  | [a] =>
    simp only [List.head?_cons, Option.map_some, Option.getD_some, ReadAlike, onlyArg,
      stamp_eq_iff (strtol_bounds a).2, ← strtol_eq_textInt_iff]
    constructor
    · rintro ⟨hserial, hweb, hajax⟩
      have hv := either_of_ne (by decide) hserial hweb
      rw [hv] at hajax
      exact ⟨hv, by tauto⟩
    · rintro ⟨hv, hajax⟩
      rw [hv]
      exact ⟨fun _ => rfl, fun _ => rfl, by tauto⟩
  | a :: b :: rest =>
    simp only [List.head?_cons, Option.map_some, Option.getD_some, ReadAlike, onlyArg,
      stamp_eq_iff (strtol_bounds a).2, ← strtol_eq_textInt_iff]
    constructor
    · rintro ⟨hserial, hweb, hajax⟩
      by_cases hs : source = scWebsrv
      · have hv := hserial (by rw [hs]; decide)
        have hneg := hajax (by rw [hs]; decide)
        exact Or.inr ⟨hs, hv, hv ▸ hneg⟩
      · exact Or.inl ((strtol_eq_zero_iff a).mp (hweb hs))
    · rintro (hv | ⟨hs, hv, hneg⟩)
      · have hz := (strtol_eq_zero_iff a).mpr hv
        rw [hz, hv]
        exact ⟨fun _ => rfl, fun _ => rfl, fun _ => by omega⟩
      · rw [hv]
        exact ⟨fun _ => rfl, fun h => absurd hs h, fun _ => hneg⟩

lemma allRead_walk_iff (config : Configuration) (source : CString) (args : Tokens) :
    AllRead .walk config source args (onlyArg atoi 420 args) ↔ ReadAlike source .walk args := by
  have hdflt : textInt Command.walk.dflt = 420 := by decide
  rw [allRead_iff rfl (ajaxValue_walk config source args), hdflt]
  match args with
  | [] => simp [ReadAlike, onlyArg]
  | [a] =>
    simp only [List.head?_cons, Option.map_some, Option.getD_some, ReadAlike, onlyArg,
      ← atoi_eq_textInt_iff]
    have hpublished : atoi a = textInt a →
        (atoi a = (toUInt64 (strtol a) : ℤ) ↔ 0 ≤ textInt a) := by
      intro hv
      obtain ⟨hlo, hhi⟩ := (atoi_eq_textInt_iff a).mp hv
      have hrange : strtol a = textInt a :=
        strtol_of_range (by unfold longMin; omega) (by unfold longMax; omega)
      rw [hv, hrange, eq_comm, toUInt64_eq_self_iff (by omega)]
    constructor
    · rintro ⟨hserial, hweb, hajax⟩
      have hv := either_of_ne (by decide) hserial hweb
      rw [hpublished hv] at hajax
      exact ⟨hv, by tauto⟩
    · rintro ⟨hv, hajax⟩
      rw [hpublished hv]
      exact ⟨fun _ => hv, fun _ => hv, by tauto⟩
  | a :: b :: rest =>
    simp only [List.head?_cons, Option.map_some, Option.getD_some, ReadAlike, onlyArg,
      implies_true, and_true, ne_eq, eq_comm (a := (420 : ℤ))]
    tauto

lemma allRead_down_iff (config : Configuration) (source : CString) (args : Tokens) :
    AllRead .down config source args (onlyArg atoi 15 args) ↔ ReadAlike source .down args := by
  have hdflt : textInt Command.down.dflt = 15 := by decide
  rw [allRead_iff rfl (ajaxValue_down config source args), hdflt]
  match args with
  | [] => simp [ReadAlike, onlyArg]
  | [a] =>
    simp only [List.head?_cons, Option.map_some, Option.getD_some, ReadAlike, onlyArg,
      ← atoi_eq_textInt_iff]
    constructor
    · rintro ⟨hserial, hweb, -⟩
      exact either_of_ne (by decide) hserial hweb
    · intro hv
      exact ⟨fun _ => hv, fun _ => hv, fun _ => hv⟩
  | a :: b :: rest =>
    simp only [List.head?_cons, Option.map_some, Option.getD_some, ReadAlike, onlyArg,
      implies_true, and_true, ne_eq, eq_comm (a := (15 : ℤ))]
    tauto

/-! ## The datagrams -/

/-- If the datagram is a `start`, a `walk` or a `down`, its arguments are of those all the
managers read alike. -/
def TimedReadAlike (buffer : CString) : Prop :=
  ∀ c source args, parseLine buffer = some (.command c (source :: c.cmd :: args)) →
    ReadAlike source c args

/-- The line of a timed command is accepted. -/
lemma mainFront_timed (config : Configuration) {buffer source : CString} {c : Command}
    {args : Tokens} (hc : c.timed = true)
    (h : parseLine buffer = some (.command c (source :: c.cmd :: args))) :
    ∃ config', mainFront config buffer =
      some (.dispatch c (source :: c.cmd :: args) config') := by
  have hres : ∃ config', mainMgrEntries c config (source :: c.cmd :: args)
      (source :: c.cmd :: args).length = some (0, config') := by
    rcases timed_cases hc with rfl | rfl | rfl
    · cases args <;> simp [mainMgrEntries, mainMgrStart]
    · rcases args with _ | ⟨_, _ | ⟨_, _⟩⟩ <;>
        simp [mainMgrEntries, mainMgrWalk, walkMinutes, mainMgrReport]
    · rcases args with _ | ⟨_, _ | ⟨_, _⟩⟩ <;>
        simp [mainMgrEntries, mainMgrDown, downSeconds, mainMgrReport]
  obtain ⟨config', hentry⟩ := hres
  refine ⟨config', ?_⟩
  rw [mainFront_command h, hentry]
  rfl

/-- The managers read the number main uses exactly when the arguments are read alike. -/
lemma managerValues_iff {config config' : Configuration} {buffer source : CString} {c : Command}
    {args : Tokens} (hc : c.timed = true)
    (h : mainFront config buffer = some (.dispatch c (source :: c.cmd :: args) config')) :
    (∀ v ∈ managerValues c config' (source :: c.cmd :: args),
      mainValue c config' (source :: c.cmd :: args) (source :: c.cmd :: args).length = some v) ↔
      ReadAlike source c args := by
  obtain ⟨-, res, hentry⟩ := mainFront_dispatch h
  have hlen : (source :: c.cmd :: args).length = args.length + 2 := rfl
  rw [hlen] at hentry ⊢
  rcases timed_cases hc with rfl | rfl | rfl
  · rw [← allRead_start_iff (mainValue_start hentry)]
    simp [AllRead, mainValue]
  · rw [← allRead_walk_iff config', mainValue_walk]
    simp [AllRead]
  · rw [← allRead_down_iff config', mainValue_down]
    simp [AllRead]

/-- **When the managers read a datagram alike.** For every configuration and every datagram:
the managers that are not the source of an accepted `start`, `walk` or `down` all get the
number main uses if and only if its arguments are of those `ReadAlike` lists. -/
theorem managers_agree_iff (config : Configuration) (buffer : CString) :
    ManagersAgree config buffer ↔ TimedReadAlike buffer := by
  constructor
  · intro h c source args hline
    by_cases hc : c.timed = true
    · obtain ⟨config', hfront⟩ := mainFront_timed config hc hline
      exact (managerValues_iff hc hfront).mp (h _ _ _ hfront hc)
    · cases c <;> simp [Command.timed, ReadAlike] at hc ⊢
  · intro h c tokens config' hfront hc
    obtain ⟨hline, -⟩ := mainFront_dispatch hfront
    obtain ⟨source, args, rfl⟩ := parseLine_command hline
    exact (managerValues_iff hc hfront).mpr (h c source args hline)

/-- `START 5 x` from the chronometer: main starts at 5 and the browsers at 0. -/
theorem managers_disagree :
    ¬ ∀ (config : Configuration) (buffer : CString), ManagersAgree config buffer := by
  intro h
  have hall := h defaultOptions "comm_server START 5 x".toList .start
    ["comm_server".toList, "start".toList, "5".toList, "x".toList]
    { defaultOptions with status.startTime := 5 } (by decide) rfl
  have hzero := hall 0 (by decide)
  exact absurd hzero (by decide)

end SerialChrono
