import SerialChrono.MainMgr
import SerialChrono.Library.PartialRun

/-!
# The command loop (`main.c`)

For each datagram the main thread cuts the text into tokens, looks up the command, runs its
`main_mgr` handler and, if that accepts it, the handler of every active manager thread; then it
decides whether the loop goes on.  `parseLine` is the part that only reads the text,
`mainFront` adds the `main_mgr` handler, and `mainStep` is a whole pass of the loop.

The manager threads own the rest of the program's state, a type `W` here, and fill in the
thread table as they start and stop: an `Arrival` is a datagram with the table the loop finds
when it handles it.
-/

namespace SerialChrono

open CText PartialRun

/-! ## Before the threads -/

/-- What main finds in a line. -/
inductive ParsedLine
  /-- Fewer than two tokens. -/
  | tooShort
  /-- The second token, the place of the command, is empty. -/
  | empty
  | command (c : Command) (tokens : Tokens)
  deriving DecidableEq, Repr

/-- The tokenizing of a line and the search for its command, whose token is put in lower case.
A word that names no command leaves `index` at -1, and the test that follows reads
`command_list[-1]`. -/
def parseLine (buffer : CString) : Option ParsedLine := do
  let tokens ← explode buffer ' '
  if tokens.length < 2 then return .tooShort
  let word ← tokens[1]?
  if word = [] then return .empty
  let c ← findCommand (toLower word)
  return .command c (tokens.set 1 (toLower word))

/-- The text main sends back. -/
inductive Response
  | ok
  | error
  | mainMgrError
  deriving DecidableEq, Repr

def Response.text : Response → CString
  | .ok => "OK".toList
  | .error => "ERROR".toList
  | .mainMgrError => "main_mgr ERROR".toList

/-- What main has done with a line before it turns to the threads. -/
inductive Front
  /-- The jump to `free_and_response`. -/
  | answered (response : Response) (config : Configuration)
  | dispatch (c : Command) (tokens : Tokens) (config : Configuration)
  deriving DecidableEq, Repr

def mainFront (config : Configuration) (buffer : CString) : Option Front := do
  match ← parseLine buffer with
  | .tooShort => return .answered .error config
  | .empty => return .answered .ok config
  | .command c tokens =>
    let (res, config) ← mainMgrEntries c config tokens tokens.length
    if res < 0 then return .answered .mainMgrError config
    return .dispatch c tokens config

/-- The configuration a line leaves, the threads left out. -/
def Front.config : Front → Configuration
  | .answered _ config => config
  | .dispatch _ _ config => config

/-- The answer to a line, the threads left out. -/
def Front.response : Front → Response
  | .answered response _ => response
  | .dispatch _ _ _ => .ok

/-! ## The threads -/

variable {W : Type}

/-- A handler of a manager thread.  It may change the configuration and the token array it
shares with main and with the handlers called after it. -/
abbrev ThreadHandler (W : Type) :=
  Configuration → W → (slot : ℕ) → Tokens → (ntokens : ℕ) →
    Option (ℤ × Configuration × W × Tokens)

/-- The fields of `sc_thread_slot` the loop reads. -/
structure ThreadSlot (W : Type) where
  index : ℤ
  entries : Option (Command → Option (ThreadHandler W))

/-- The thread is active and has published its entry points. -/
def ThreadSlot.isAlive (slot : ThreadSlot W) : Bool := decide (0 ≤ slot.index) && slot.entries.isSome

/-- The local variables of the loop over the threads. -/
structure ThreadRound (W : Type) where
  config : Configuration
  world : W
  tokens : Tokens
  response : Response
  alive : ℕ

/-- One pass of the loop over the threads. -/
def threadTurn (c : Command) (ntokens : ℕ) (r : ThreadRound W) (n : ℕ) (slot : ThreadSlot W) :
    Option (ThreadRound W) :=
  if slot.index < 0 then some r
  else
    match slot.entries with
    | none => some r
    | some entries =>
      match entries c with
      | none => some { r with alive := r.alive + 1 }
      | some handler => do
        let (res, config, world, tokens) ← handler r.config r.world n r.tokens ntokens
        let response := if res < 0 then .error else r.response
        return { config, world, tokens, response, alive := r.alive + 1 }

def threadLoop (c : Command) (ntokens : ℕ) :
    List (ThreadSlot W) → (n : ℕ) → ThreadRound W → Option (ThreadRound W)
  | [], _, r => some r
  | slot :: slots, n, r => do
    let r ← threadTurn c ntokens r n slot
    threadLoop c ntokens slots (n + 1) r

/-! ## The loop -/

/-- What main keeps from one datagram to the next. -/
structure MainState (W : Type) where
  config : Configuration
  world : W
  loop : Bool

/-- A datagram, and the thread table as main finds it. -/
structure Arrival (W : Type) where
  datagram : List Char
  slots : Fin 6 → ThreadSlot W

/-- The slots of the manager threads. -/
def Arrival.managers (a : Arrival W) : List (ThreadSlot W) :=
  [a.slots 0, a.slots 1, a.slots 2, a.slots 3]

/-- `recvfrom` into `buffer`.  The terminator of a datagram that fills the 500 bytes, or of a
longer one cut to them, is written past the end. -/
def receive (datagram : List Char) : Option CString :=
  if datagram.length < 500 then some (cstr datagram) else none

/-- One pass of `while (loop)`. -/
def mainStep (s : MainState W) (a : Arrival W) : Option (MainState W × Response) := do
  let buffer ← receive a.datagram
  match ← mainFront s.config buffer with
  | .answered response config => return ({ s with config }, response)
  | .dispatch c tokens config =>
    let r ← threadLoop c tokens.length a.managers 0
      { config, world := s.world, tokens, response := .ok, alive := 0 }
    let loop := if r.alive = 0 then false else s.loop
    let loop := if 0 ≤ stripos buffer "exit".toList then false else loop
    return ({ config := r.config, world := r.world, loop }, r.response)

/-! ## What the stages do -/

/-- A datagram that leaves room for the terminator. -/
lemma receive_length {datagram : List Char} {buffer : CString}
    (h : receive datagram = some buffer) : buffer.length < 500 := by
  unfold receive at h
  split_ifs at h with hdatagram
  cases h
  exact lt_of_le_of_lt (List.takeWhile_prefix _).length_le hdatagram

lemma threadTurn_alive {c : Command} {ntokens n : ℕ} {r t : ThreadRound W} {slot : ThreadSlot W}
    (h : threadTurn c ntokens r n slot = some t) :
    t.alive = r.alive + if slot.isAlive then 1 else 0 := by
  unfold threadTurn at h
  unfold ThreadSlot.isAlive
  split at h
  · next hneg =>
    cases h
    simp [not_le.mpr hneg]
  · next hpos =>
    rw [not_lt] at hpos
    cases hentries : slot.entries with
    | none =>
      simp only [hentries, Option.some.injEq] at h
      simp [h]
    | some entries =>
      simp only [hentries] at h
      cases hhandler : entries c with
      | none =>
        simp only [hhandler, Option.some.injEq] at h
        subst h
        simp [hpos]
      | some handler =>
        simp only [hhandler] at h
        obtain ⟨⟨res, config, world, tokens⟩, -, hr⟩ := Option.bind_eq_some_iff.mp h
        cases hr
        simp [hpos]

/-- A thread that has no handler for the command is only counted. -/
lemma threadTurn_of_none {c : Command} {ntokens n : ℕ} {r : ThreadRound W} {index : ℤ}
    {entries : Command → Option (ThreadHandler W)} (hindex : ¬ index < 0) (h : entries c = none) :
    threadTurn c ntokens r n ⟨index, some entries⟩ = some { r with alive := r.alive + 1 } := by
  unfold threadTurn
  rw [if_neg hindex]
  simp only [h]

/-- The turn of a thread that has a handler. -/
lemma threadTurn_of_some {c : Command} {ntokens n : ℕ} {r : ThreadRound W} {index : ℤ}
    {entries : Command → Option (ThreadHandler W)} {handler : ThreadHandler W}
    (hindex : ¬ index < 0) (h : entries c = some handler) :
    threadTurn c ntokens r n ⟨index, some entries⟩ =
      (handler r.config r.world n r.tokens ntokens).map fun t =>
        ⟨t.2.1, t.2.2.1, t.2.2.2, if t.1 < 0 then .error else r.response, r.alive + 1⟩ := by
  unfold threadTurn
  rw [if_neg hindex, Option.map_eq_bind]
  simp only [h]
  rfl

/-- The loop over the threads counts the ones alive. -/
lemma threadLoop_alive {c : Command} {ntokens : ℕ} {slots : List (ThreadSlot W)} {n : ℕ}
    {r t : ThreadRound W} (h : threadLoop c ntokens slots n r = some t) :
    t.alive = r.alive + slots.countP ThreadSlot.isAlive := by
  induction slots generalizing n r with
  | nil =>
    cases h
    simp
  | cons slot slots ih =>
    obtain ⟨u, hu, ht⟩ := Option.bind_eq_some_iff.mp h
    rw [ih ht, threadTurn_alive hu, List.countP_cons]
    omega

/-- The lines that main answers without turning to the threads, where it is defined what it
does: those without a command, and the commands whose `main_mgr` handler answers -1. -/
def Rejected (config : Configuration) (buffer : CString) : Prop :=
  match parseLine buffer with
  | some .tooShort | some .empty => True
  | some (.command c tokens) =>
    (c = .int ∨ c = .stop) ∧ (config.status.startTime < 0 ∨ tokens.length = 2) ∨
      c = .data ∧ tokens.length = 2
  | none => False

/-- A `main_mgr` handler answers -1 to `int` and `stop` while the chronometer is stopped or
without a timestamp, and to `data` without values; it then leaves the configuration alone. -/
lemma mainMgrEntries_spec {c : Command} {config config' : Configuration} {tokens : Tokens}
    {n : ℕ} {res : ℤ} (h : mainMgrEntries c config tokens n = some (res, config')) :
    (res < 0 ↔ (c = .int ∨ c = .stop) ∧ (config.status.startTime < 0 ∨ n = 2) ∨
      c = .data ∧ n = 2) ∧ (res < 0 → config' = config) := by
  cases c with
  | int =>
    simp only [mainMgrEntries, mainMgrInt] at h
    grind
  | stop =>
    simp only [mainMgrEntries, mainMgrStop] at h
    grind
  | data =>
    simp only [mainMgrEntries, mainMgrData] at h
    split at h
    · next hn =>
      cases h
      simp [hn]
    · next hn =>
      simp only [Option.bind_eq_bind, Option.bind_eq_some_iff, Option.pure_def,
        Option.some.injEq, Prod.mk.injEq] at h
      obtain ⟨t, -, d, -, rfl, -⟩ := h
      simp [hn]
  | _ =>
    simp only [mainMgrEntries, mainMgrStart, mainMgrFail, mainMgrOk, mainMgrMsg, mainMgrWalk,
      mainMgrDown, mainMgrFault, mainMgrRefusal, mainMgrElim, mainMgrReset, mainMgrHelp,
      mainMgrVersion, mainMgrExit, mainMgrServer, mainMgrPorts, mainMgrConfig, mainMgrStatus,
      mainMgrNumero, mainMgrBright, mainMgrClock, mainMgrDebug, mainMgrReport,
      Option.bind_eq_bind, Option.bind_eq_some_iff, Option.pure_def, Option.some.injEq,
      Prod.mk.injEq] at h
    have hres : res = 0 := by grind
    simp [hres]

lemma mainFront_none {config : Configuration} {buffer : CString} (h : parseLine buffer = none) :
    mainFront config buffer = none := by
  simp [mainFront, h]

lemma mainFront_tooShort {config : Configuration} {buffer : CString}
    (h : parseLine buffer = some .tooShort) :
    mainFront config buffer = some (.answered .error config) := by
  simp [mainFront, h]

lemma mainFront_empty {config : Configuration} {buffer : CString}
    (h : parseLine buffer = some .empty) :
    mainFront config buffer = some (.answered .ok config) := by
  simp [mainFront, h]

lemma mainFront_command {config : Configuration} {buffer : CString} {c : Command}
    {tokens : Tokens} (h : parseLine buffer = some (.command c tokens)) :
    mainFront config buffer = (mainMgrEntries c config tokens tokens.length).map fun r =>
      if r.1 < 0 then .answered .mainMgrError r.2 else .dispatch c tokens r.2 := by
  simp only [mainFront, h, Option.bind_eq_bind, Option.bind_some, Option.pure_def]
  cases mainMgrEntries c config tokens tokens.length with
  | none => rfl
  | some r =>
    simp only [Option.bind_some, Option.map_some]
    split <;> rfl

/-- What main finds in a line that has a source and a word. -/
lemma parseLine_of_splitOn {buffer source word : CString} {args : Tokens}
    (h : buffer.splitOn ' ' = source :: word :: args) :
    parseLine buffer =
      if args.length ≤ 30 then
        if word = [] then some .empty
        else (findCommand (toLower word)).map fun c =>
          .command c (source :: toLower word :: args)
      else none := by
  have hcount : (source :: word :: args).length ≤ 32 ↔ args.length ≤ 30 := by
    simp only [List.length_cons]
    omega
  have htwo : ¬ (source :: word :: args).length < 2 := by
    simp only [List.length_cons]
    omega
  unfold parseLine
  rw [explode_eq, h]
  by_cases hlen : args.length ≤ 30
  · rw [if_pos (hcount.mpr hlen), if_pos hlen]
    simp only [Option.bind_eq_bind, Option.bind_some, htwo, if_false, List.getElem?_cons_succ,
      List.getElem?_cons_zero, Option.pure_def, List.set_cons_succ, List.set_cons_zero]
    rw [Option.map_eq_bind]
    rfl
  · rw [if_neg (mt hcount.mp hlen), if_neg hlen]
    rfl

/-- The command of a line that is a source, a command word and its arguments. -/
lemma parseLine_append {source word : CString} (args : CString) {c : Command}
    (hsource : ' ' ∉ source) (hblank : ' ' ∉ word) (hword : word ≠ [])
    (hc : toLower word = c.cmd) :
    parseLine (source ++ ' ' :: (word ++ ' ' :: args)) =
      if (args.splitOn ' ').length ≤ 30 then
        some (.command c (source :: c.cmd :: args.splitOn ' '))
      else none := by
  have hsplit : (source ++ ' ' :: (word ++ ' ' :: args)).splitOn ' ' =
      source :: word :: args.splitOn ' ' := by
    rw [List.splitOn_append_cons_self_of_not_mem hsource,
      List.splitOn_append_cons_self_of_not_mem hblank]
  rw [parseLine_of_splitOn hsplit, hc, if_neg hword, findCommand_cmd, Option.map_some]

/-- The first token of a line is the source it begins with. -/
lemma parseLine_source {source body : CString} {c : Command} {tokens : Tokens}
    (hsource : ' ' ∉ source)
    (h : parseLine (source ++ ' ' :: body) = some (.command c tokens)) :
    tokens.head? = some source := by
  have hsplit := List.splitOn_append_cons_self_of_not_mem hsource body
  rcases hrest : body.splitOn ' ' with - | ⟨word, args⟩
  · exact absurd hrest (List.splitOn_ne_nil ' ' _)
  · rw [hrest] at hsplit
    rw [parseLine_of_splitOn hsplit] at h
    split_ifs at h
    · cases h
    · obtain ⟨command, -, h⟩ := Option.map_eq_some_iff.mp h
      cases h
      rfl

/-- The tokens of a dispatched line: source, command word and arguments. -/
lemma parseLine_command {buffer : CString} {c : Command} {tokens : Tokens}
    (h : parseLine buffer = some (.command c tokens)) :
    ∃ source args, tokens = source :: c.cmd :: args := by
  obtain ⟨ts, -, h⟩ := Option.bind_eq_some_iff.mp h
  match ts with
  | [] => simp at h
  | [t] => simp at h
  | source :: word :: args =>
    simp only [List.length_cons, List.getElem?_cons_succ, List.getElem?_cons_zero,
      Option.bind_eq_bind, Option.bind_some, Option.pure_def] at h
    split at h
    · cases h
    split at h
    · cases h
    · obtain ⟨c', hc, h⟩ := Option.bind_eq_some_iff.mp h
      cases h
      exact ⟨source, args, by simp [findCommand_eq_some hc]⟩

/-- A dispatched line has run its `main_mgr` handler. -/
lemma mainFront_dispatch {config config' : Configuration} {buffer : CString} {c : Command}
    {tokens : Tokens} (h : mainFront config buffer = some (.dispatch c tokens config')) :
    parseLine buffer = some (.command c tokens) ∧
      ∃ res, mainMgrEntries c config tokens tokens.length = some (res, config') := by
  cases hline : parseLine buffer with
  | none =>
    rw [mainFront_none hline] at h
    cases h
  | some line =>
    cases line with
    | tooShort =>
      rw [mainFront_tooShort hline] at h
      cases h
    | empty =>
      rw [mainFront_empty hline] at h
      cases h
    | command d ts =>
      rw [mainFront_command hline] at h
      obtain ⟨⟨res, config''⟩, hentry, hres⟩ := Option.map_eq_some_iff.mp h
      by_cases hneg : res < 0
      · simp [hneg] at hres
      · simp only [hneg, if_false, Front.dispatch.injEq] at hres
        obtain ⟨rfl, rfl, rfl⟩ := hres
        exact ⟨rfl, res, hentry⟩

/-- Main turns to the threads with a command it has accepted. -/
lemma mainFront_dispatch_nonneg {config config' : Configuration} {buffer : CString} {c : Command}
    {tokens : Tokens} (h : mainFront config buffer = some (.dispatch c tokens config')) :
    ∃ res, mainMgrEntries c config tokens tokens.length = some (res, config') ∧ ¬ res < 0 := by
  obtain ⟨hline, -⟩ := mainFront_dispatch h
  rw [mainFront_command hline] at h
  obtain ⟨⟨res, config''⟩, hentry, hres⟩ := Option.map_eq_some_iff.mp h
  by_cases hneg : res < 0
  · simp [hneg] at hres
  · simp only [hneg, if_false, Front.dispatch.injEq, true_and] at hres
    exact ⟨res, hres ▸ hentry, hneg⟩

/-- `mainFront` answers exactly the rejected lines. -/
lemma mainFront_answered_iff {config : Configuration} {buffer : CString} {front : Front}
    (h : mainFront config buffer = some front) :
    (∃ response config', front = .answered response config') ↔ Rejected config buffer := by
  unfold Rejected
  cases hline : parseLine buffer with
  | none =>
    rw [mainFront_none hline] at h
    cases h
  | some line =>
    cases line with
    | tooShort =>
      rw [mainFront_tooShort hline] at h
      cases h
      simp
    | empty =>
      rw [mainFront_empty hline] at h
      cases h
      simp
    | command c tokens =>
      rw [mainFront_command hline] at h
      obtain ⟨⟨res, config'⟩, hentry, hres⟩ := Option.map_eq_some_iff.mp h
      dsimp only at hres ⊢
      rw [← (mainMgrEntries_spec hentry).1]
      by_cases hneg : res < 0
      · simp [← hres, hneg]
      · simp [← hres, hneg]

end SerialChrono
