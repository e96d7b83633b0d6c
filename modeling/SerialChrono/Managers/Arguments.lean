import SerialChrono.Managers.Ajax
import SerialChrono.Managers.Console
import SerialChrono.Canometroweb.Model
import SerialChrono.Digican.Model
import SerialChrono.Generic.Model

/-!
# The arguments the handlers use

Every handler gets the whole token array and decides by itself which tokens were sent.  What lies
behind them in the array is nothing, or what a handler before has stored there.  A handler that
reads too far does not always do the same, then: the read fails where the array ends, and gives a
text where it goes on.  `UsesSentOnly` says that a handler does the same with anything behind the
tokens that were sent.

Three handlers read an argument without looking whether it was sent: `msg` and `server` in the
main thread, and `msg` and `turn` in the ajax manager (`argumentsSent_iff`).  The default
`serial_mgr_numero` stores in the shared array can hide the last one, but it is not the default
of the ajax manager.
-/

namespace SerialChrono

open CText CBuffer

/-- The handler, called with these tokens, does the same whatever lies behind them. -/
def UsesSentOnly {α : Type} (f : Tokens → ℕ → α) (tokens : Tokens) : Prop :=
  ∀ rest, f (tokens ++ rest) tokens.length = f tokens tokens.length

/-- The loops go as far as the tokens that were sent. -/
lemma take_sent (tokens rest : Tokens) :
    (tokens ++ rest).take tokens.length = tokens.take tokens.length := by
  rw [List.take_left, List.take_length]

variable {c : Command} {source : CString} {args : Tokens}

/-! ## The main thread -/

/-- All handlers but two look at the number of tokens before they read an argument. -/
lemma usesSentOnly_mainMgr (seconds : ℤ → CString) (config : Configuration)
    (hmsg : c = .msg → ¬ args.length < 2) (hserver : c = .server → args ≠ []) :
    UsesSentOnly (mainMgrCall seconds config · · c) (source :: c.cmd :: args) := by
  match args with
  | [] =>
    cases c with
    | msg => exact absurd Nat.zero_lt_two (hmsg rfl)
    | server => exact absurd rfl (hserver rfl)
    | _ => exact fun _ => rfl
  | [a] =>
    cases c with
    | msg => exact absurd Nat.one_lt_two (hmsg rfl)
    | _ => exact fun _ => rfl
  | a :: b :: args => cases c <;> exact fun _ => rfl

/-- A message without seconds or without a text: the line in the log has what lies there. -/
lemma not_usesSentOnly_mainMgrMsg (seconds : ℤ → CString) (config : Configuration)
    (hargs : args.length < 2) :
    ¬ UsesSentOnly (mainMgrCall seconds config · · .msg) (source :: Command.msg.cmd :: args) := by
  intro h
  have hlengths := congrArg (Option.map fun call => call.2.2.length) (h [[], []])
  rcases args with _ | ⟨a, _ | ⟨b, args⟩⟩
  · simp [mainMgrCall, mainMgrEntries, mainMgrMsg, mainMgrReport, mainMgrLog, commandLine,
      printPointer, libcNull] at hlengths
  · simp [mainMgrCall, mainMgrEntries, mainMgrMsg, mainMgrReport, mainMgrLog, commandLine,
      printPointer, libcNull] at hlengths
  · exact absurd hargs (by simp)

/-- A `server` without an address. -/
lemma not_usesSentOnly_mainMgrServer (seconds : ℤ → CString) (config : Configuration) :
    ¬ UsesSentOnly (mainMgrCall seconds config · · .server) [source, Command.server.cmd] := by
  intro h
  have hlengths := congrArg (Option.map fun call => call.2.2.length) (h [[]])
  simp [mainMgrCall, mainMgrEntries, mainMgrServer, mainMgrReport, mainMgrLog, commandLine,
    printPointer, libcNull] at hlengths

/-! ## The console -/

/-- The console shows a mark only after main has found it. -/
lemma usesSentOnly_consoleMgr (seconds : ℤ → CString) (listing : Command → Configuration → CString)
    (config : Configuration) (hmark : c = .int ∨ c = .stop → args ≠ []) :
    UsesSentOnly (consoleMgrEntries seconds listing c config) (source :: c.cmd :: args) := by
  intro rest
  cases c with
  | msg =>
    simp only [consoleMgrEntries, consoleMgrMsg]
    rw [take_sent]
  | int =>
    obtain ⟨a, args, rfl⟩ := List.exists_cons_of_ne_nil (hmark (.inl rfl))
    rfl
  | stop =>
    obtain ⟨a, args, rfl⟩ := List.exists_cons_of_ne_nil (hmark (.inr rfl))
    rfl
  | _ => cases args <;> rfl

/-! ## The chronometer -/

/-- The drivers of chronometers on a serial port. -/
inductive Driver
  | generic | dummy | digican | canometroweb
  deriving DecidableEq, Repr

/-- `P` holds of the `module_write` of a driver, in every state of the driver.  The one of `dummy`
composes the same text as the one of `generic`. -/
def Driver.Each (P : ∀ {α : Type}, (Tokens → ℕ → α) → Prop) : Driver → Prop
  | .generic | .dummy => ∀ buffer : Buffer 1024, P (genericWrite buffer)
  | .digican => ∀ config counters, P fun tokens _ => Digican.moduleWrite config tokens counters
  | .canometroweb => ∀ (D : Type) (dev : Device D) (readXml : XmlReader) (config : Configuration)
      (s : DriverState D), P fun tokens _ => moduleWrite dev readXml config tokens s

/-- A handler of the serial manager, which may go on to `module_write`. -/
def serialHandled {α : Type} (write : Tokens → ℕ → α) (f : Tokens → ℕ → SerialCall)
    (tokens : Tokens) (ntokens : ℕ) : ℤ ⊕ α :=
  match f tokens ntokens with
  | .returns res => .inl res
  | .moduleWrite tokens ntokens => .inr (write tokens ntokens)

lemma usesSentOnly_genericWrite (buffer : Buffer 1024) {word : CString} :
    UsesSentOnly (genericWrite buffer) (source :: word :: args) := by
  intro rest
  unfold genericWrite
  rw [take_sent]
  rfl

/-- The network chronometer reads the argument of a `walk`, without looking whether there is one. -/
lemma usesSentOnly_canometrowebWrite {D : Type} (dev : Device D) (readXml : XmlReader)
    (config : Configuration) (s : DriverState D) (hwalk : c = .walk → args ≠ []) :
    UsesSentOnly (fun tokens _ => moduleWrite dev readXml config tokens s)
      (source :: c.cmd :: args) := by
  intro rest
  have hword (tokens : Tokens) : (source :: c.cmd :: tokens)[1]? = some c.cmd := rfl
  simp only [List.cons_append, moduleWrite, hword, Option.bind_eq_bind, Option.bind_some,
    findCommand_toLower_cmd]
  cases c with
  | walk =>
    obtain ⟨a, args, rfl⟩ := List.exists_cons_of_ne_nil (hwalk rfl)
    rfl
  | _ => rfl

/-- A driver reads what it is given, if `walk` comes to it with an argument. -/
lemma Driver.each_usesSentOnly (driver : Driver) (hwalk : c = .walk → args ≠ []) :
    driver.Each fun write => UsesSentOnly write (source :: c.cmd :: args) := by
  cases driver with
  | generic | dummy => exact fun buffer => usesSentOnly_genericWrite buffer
  | digican => exact fun config counters rest => rfl
  | canometroweb =>
    exact fun D dev readXml config s => usesSentOnly_canometrowebWrite dev readXml config s hwalk

lemma Driver.each_of_forall {P : ∀ {α : Type}, (Tokens → ℕ → α) → Prop} (driver : Driver)
    (h : ∀ {α : Type} (write : Tokens → ℕ → α), P write) : driver.Each P := by
  cases driver with
  | generic | dummy => exact fun _ => h _
  | digican => exact fun _ _ => h _
  | canometroweb => exact fun _ _ _ _ _ => h _

lemma Driver.Each.imp {P Q : ∀ {α : Type}, (Tokens → ℕ → α) → Prop} {driver : Driver}
    (h : driver.Each P) (himp : ∀ {α : Type} (write : Tokens → ℕ → α), P write → Q write) :
    driver.Each Q := by
  cases driver with
  | generic | dummy => exact fun buffer => himp _ (h buffer)
  | digican => exact fun config counters => himp _ (h config counters)
  | canometroweb => exact fun D dev readXml config s => himp _ (h D dev readXml config s)

section

variable {α : Type} {write : Tokens → ℕ → α}

lemma usesSentOnly_serialMgrWrite (h : UsesSentOnly write (source :: args)) :
    UsesSentOnly (serialHandled write serialMgrWrite) (source :: args) := by
  intro rest
  unfold serialHandled serialMgrWrite
  by_cases hown : fromSource scSerial (source :: args) = true
  · have hown' : fromSource scSerial (source :: args ++ rest) = true := hown
    rw [if_pos hown, if_pos hown']
  · have hown' : ¬ fromSource scSerial (source :: args ++ rest) = true := hown
    rw [if_neg hown, if_neg hown']
    exact congrArg Sum.inr (h rest)

/-- With its default a line of two tokens is one of three. -/
lemma usesSentOnly_serialMgrDefault {dflt word : CString}
    (h : UsesSentOnly write (source :: word :: if args = [] then [dflt] else args)) :
    UsesSentOnly (serialHandled write (serialMgrDefault dflt)) (source :: word :: args) := by
  intro rest
  unfold serialHandled serialMgrDefault
  by_cases hown : fromSource scSerial (source :: word :: args) = true
  · have hown' : fromSource scSerial (source :: word :: args ++ rest) = true := hown
    rw [if_pos hown, if_pos hown']
  · have hown' : ¬ fromSource scSerial (source :: word :: args ++ rest) = true := hown
    rw [if_neg hown, if_neg hown']
    cases args with
    | nil => exact congrArg Sum.inr (h (rest.drop 1))
    | cons a args =>
      rw [if_neg (List.cons_ne_nil a args)] at h
      exact congrArg Sum.inr (h rest)

end

/-- The handlers of the serial manager supply what a driver needs. -/
lemma usesSentOnly_serialMgr (driver : Driver) {f : Tokens → ℕ → SerialCall}
    (hf : serialMgrEntries c = some f) :
    driver.Each fun write => UsesSentOnly (serialHandled write f) (source :: c.cmd :: args) := by
  have hwrite (hc : c ≠ .walk) : driver.Each fun write =>
      UsesSentOnly (serialHandled write serialMgrWrite) (source :: c.cmd :: args) :=
    (driver.each_usesSentOnly fun h => absurd h hc).imp fun _ => usesSentOnly_serialMgrWrite
  have hdefault (dflt : CString) : driver.Each fun write =>
      UsesSentOnly (serialHandled write (serialMgrDefault dflt)) (source :: c.cmd :: args) := by
    refine (driver.each_usesSentOnly fun _ => ?_).imp fun _ => usesSentOnly_serialMgrDefault
    split_ifs with hargs
    · exact List.cons_ne_nil _ _
    · exact hargs
  cases c with
  | start | walk | down | fault | refusal | elim | turn | bright =>
    cases hf
    exact hdefault _
  | int | stop | msg | data | reset | clock =>
    cases hf
    exact hwrite (by decide)
  | fail | ok | exit =>
    cases hf
    exact driver.each_of_forall fun _ _ => rfl
  | help | version | server | ports | config | status | debug => cases hf

/-! ## The browsers -/

lemma usesSentOnly_webMgrSendMsg (config : Configuration) {word : CString} :
    UsesSentOnly (webMgrSendMsg config) (source :: word :: args) := by
  intro rest
  unfold webMgrSendMsg joinTokens
  rw [take_sent]
  rfl

lemma usesSentOnly_webMgrSendDefault (dflt : CString) (config : Configuration) {word : CString} :
    UsesSentOnly (webMgrSendDefault dflt config) (source :: word :: args) := by
  intro rest
  have hmsg : UsesSentOnly (webMgrSendMsg config) (source :: word :: args) :=
    usesSentOnly_webMgrSendMsg config
  unfold webMgrSendDefault
  rw [hmsg rest]
  rfl

/-- The handlers of the web manager. -/
lemma usesSentOnly_webMgr {f : Configuration → Tokens → ℕ → Option WebCall}
    (hf : webMgrEntries c = some f) (config : Configuration) :
    UsesSentOnly (f config) (source :: c.cmd :: args) := by
  cases c with
  | start | walk | down =>
    cases hf
    exact usesSentOnly_webMgrSendDefault _ config
  | int | stop | fail | ok | msg | reset =>
    cases hf
    exact usesSentOnly_webMgrSendMsg config
  | turn | bright | exit =>
    cases hf
    exact fun _ => rfl
  | fault | refusal | elim | data | help | version | server | ports | config | status | clock
  | debug => cases hf

/-! ## The server -/

/-- Two handlers of the ajax manager read an argument without looking whether there is one, unless
they return at once. -/
lemma usesSentOnly_ajaxMgr {f : Configuration → Tokens → ℕ → Option AjaxCall}
    (hf : ajaxMgrEntries c = some f) (config : Configuration)
    (hmsg : c = .msg → ¬ args.length < 2)
    (hturn : c = .turn → source ≠ scAjaxsrv → args ≠ []) :
    UsesSentOnly (f config) (source :: c.cmd :: args) := by
  intro rest
  cases c with
  | msg =>
    cases hf
    unfold ajaxMgrMsg
    rw [take_sent]
    match args with
    | [] => exact absurd Nat.zero_lt_two (hmsg rfl)
    | [a] => exact absurd Nat.one_lt_two (hmsg rfl)
    | a :: b :: args => rfl
  | turn =>
    cases hf
    by_cases hsource : source = scAjaxsrv
    · subst hsource
      rfl
    · obtain ⟨a, args, rfl⟩ := List.exists_cons_of_ne_nil (hturn rfl hsource)
      rfl
  | help | version | server | ports | config | status | bright | clock | debug => cases hf
  | _ =>
    cases hf
    cases args <;> rfl

/-- A `turn` without a number that the ajax manager publishes. -/
lemma not_usesSentOnly_ajaxMgrTurn (config : Configuration) (hsource : source ≠ scAjaxsrv) :
    ¬ UsesSentOnly (ajaxMgrTurn config) [source, Command.turn.cmd] := by
  intro h
  have hnumber := h ["5".toList]
  simp [ajaxMgrTurn, fromSource, hsource] at hnumber

/-! ## A datagram -/

/-- The manager threads, by their tables. -/
inductive Manager
  | console | serial | web | ajax
  deriving DecidableEq, Repr

/-- The handler of a manager, if it has one for the command, uses only what was sent, or what it has
supplied, with any configuration the handlers before it have left. -/
def Manager.UsesSent (driver : Driver) (c : Command) (tokens : Tokens) : Manager → Prop
  | .console => ∀ seconds listing config,
    UsesSentOnly (consoleMgrEntries seconds listing c config) tokens
  | .serial => ∀ f ∈ serialMgrEntries c,
    driver.Each fun write => UsesSentOnly (serialHandled write f) tokens
  | .web => ∀ f ∈ webMgrEntries c, ∀ config, UsesSentOnly (f config) tokens
  | .ajax => ∀ f ∈ ajaxMgrEntries c, ∀ config, UsesSentOnly (f config) tokens

/-- Every handler a datagram leads to uses only what was sent or what it has supplied. -/
def ArgumentsSent (driver : Driver) (active : Manager → Bool) (config : Configuration)
    (datagram : List Char) : Prop :=
  ∀ buffer c tokens, receive datagram = some buffer →
    parseLine buffer = some (.command c tokens) →
    (∀ seconds, UsesSentOnly (mainMgrCall seconds config · · c) tokens) ∧
    ∀ config', mainFront config buffer = some (.dispatch c tokens config') →
      ∀ m, active m = true → m.UsesSent driver c tokens

/-- The datagram is a `msg` without seconds and a text, a `server` without an address, or a
`turn` without a number that the ajax manager publishes. -/
def ArgumentMissing (active : Manager → Bool) (datagram : List Char) : Prop :=
  ∃ buffer c source rest, receive datagram = some buffer ∧
    parseLine buffer = some (.command c (source :: rest)) ∧
    (c = .msg ∧ rest.length < 3 ∨ c = .server ∧ rest.length < 2 ∨
      c = .turn ∧ rest.length < 2 ∧ active .ajax = true ∧ source ≠ scAjaxsrv)

/-- A `turn` without a number is accepted. -/
lemma mainFront_turn (config : Configuration) {buffer : CString} {source word : CString}
    (h : parseLine buffer = some (.command .turn [source, word])) :
    ∃ config', mainFront config buffer = some (.dispatch .turn [source, word] config') := by
  rw [mainFront_command h]
  exact ⟨_, rfl⟩

/-- Each kind of datagram in `ArgumentMissing` leads to a handler that reads too far. -/
lemma not_argumentMissing_of_sent {driver : Driver} {active : Manager → Bool}
    {config : Configuration} {datagram : List Char}
    (h : ArgumentsSent driver active config datagram) : ¬ ArgumentMissing active datagram := by
  rintro ⟨buffer, c, source, rest, hreceive, hline, hmissing⟩
  obtain ⟨source', args, htokens⟩ := parseLine_command hline
  cases htokens
  obtain ⟨hmain, hmanagers⟩ := h buffer c _ hreceive hline
  rw [List.length_cons] at hmissing
  rcases hmissing with ⟨rfl, hlen⟩ | ⟨rfl, hlen⟩ | ⟨rfl, hlen, hactive, hsource⟩
  · exact not_usesSentOnly_mainMgrMsg printInt config (Nat.lt_of_succ_lt_succ hlen) (hmain printInt)
  · have hargs : args = [] := List.length_eq_zero_iff.mp (by omega)
    subst hargs
    exact not_usesSentOnly_mainMgrServer printInt config (hmain printInt)
  · have hargs : args = [] := List.length_eq_zero_iff.mp (by omega)
    subst hargs
    obtain ⟨config', hfront⟩ := mainFront_turn config hline
    exact not_usesSentOnly_ajaxMgrTurn config' hsource
      (hmanagers config' hfront .ajax hactive _ rfl config')

/-- What a manager uses once main has accepted the command. -/
lemma usesSent_manager (driver : Driver) {active : Manager → Bool} {config config' : Configuration}
    {buffer : CString} {datagram : List Char} (hmissing : ¬ ArgumentMissing active datagram)
    (hreceive : receive datagram = some buffer)
    (hfront : mainFront config buffer = some (.dispatch c (source :: c.cmd :: args) config'))
    {m : Manager} (hactive : active m = true) :
    m.UsesSent driver c (source :: c.cmd :: args) := by
  obtain ⟨hline, -⟩ := mainFront_dispatch hfront
  obtain ⟨res, hentry, hres⟩ := mainFront_dispatch_nonneg hfront
  cases m with
  | console =>
    intro seconds listing config
    refine usesSentOnly_consoleMgr seconds listing config fun hmark hargs => hres ?_
    subst hargs
    exact (mainMgrEntries_spec hentry).1.mpr (.inl ⟨hmark, .inr rfl⟩)
  | serial => exact fun f hf => usesSentOnly_serialMgr driver hf
  | web => exact fun f hf config => usesSentOnly_webMgr hf config
  | ajax =>
    refine fun f hf config => usesSentOnly_ajaxMgr hf config (fun hc => ?_) fun hc hsource => ?_
    · exact fun hfew => hmissing
        ⟨buffer, c, source, _, hreceive, hline, .inl ⟨hc, Nat.succ_lt_succ hfew⟩⟩
    · rintro rfl
      exact hmissing ⟨buffer, c, source, _, hreceive, hline,
        .inr (.inr ⟨hc, Nat.one_lt_two, hactive, hsource⟩)⟩

/-- **Which datagrams make a handler use an argument that was not sent.** -/
theorem argumentsSent_iff (driver : Driver) (active : Manager → Bool) (config : Configuration)
    (datagram : List Char) :
    ArgumentsSent driver active config datagram ↔ ¬ ArgumentMissing active datagram := by
  constructor
  · exact not_argumentMissing_of_sent
  · intro hmissing buffer c tokens hreceive hline
    obtain ⟨source, args, rfl⟩ := parseLine_command hline
    refine ⟨fun seconds => usesSentOnly_mainMgr seconds config (fun hc => ?_) fun hc => ?_,
      fun config' hfront m hactive => usesSent_manager driver hmissing hreceive hfront hactive⟩
    · exact fun hfew => hmissing
        ⟨buffer, c, source, _, hreceive, hline, .inl ⟨hc, Nat.succ_lt_succ hfew⟩⟩
    · rintro rfl
      exact hmissing ⟨buffer, c, source, _, hreceive, hline, .inr (.inl ⟨hc, Nat.one_lt_two⟩)⟩

/-- `turn` from the console, with the ajax manager running: its handler reads `tokens[2]`. -/
theorem turn_without_number :
    ¬ ∀ (driver : Driver) (active : Manager → Bool) (config : Configuration)
      (datagram : List Char), ArgumentsSent driver active config datagram := by
  intro h
  have hfront : mainFront defaultOptions "user_server turn".toList =
      some (.dispatch .turn ["user_server".toList, "turn".toList]
        { defaultOptions with status.numero := 1 }) := by decide
  have hsent := (h .generic (fun _ => true) defaultOptions "user_server turn".toList _ _ _ rfl
    (mainFront_dispatch hfront).1).2 _ hfront .ajax rfl ajaxMgrTurn rfl defaultOptions
  exact absurd (hsent ["+".toList]) (by decide)

end SerialChrono
