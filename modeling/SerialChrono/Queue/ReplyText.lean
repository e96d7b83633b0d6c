import SerialChrono.Library.JsonText
import SerialChrono.Managers.Reencoding
import SerialChrono.Queue.Held

/-!
# The text of a reply to the browser (`web_server.c`)

`readData` prints its reply into `line` as a JSON object whose values are strings: the values of
the status, the message it has picked from the output queue, if any, and the count the browser has
sent.  A message is put between the quotes as it is.  `readDataBody_tells_iff` says which messages
this is right for, among those the handlers of the web manager queue for the commands main can
receive; none of them is too long for `line`.
-/

namespace SerialChrono

open CText CBuffer PartialRun JsonText

/-! ## The text -/

/-- The body `readData` sends, with `line` as it finds it. -/
def readDataBody (line : Buffer 1024) (config : Configuration) (outputQueue : Queue)
    (cmdid : ℤ) : Option CString := do
  let reply ← readData config outputQueue cmdid
  -- the sum is one of `int`
  if IsInt (config.status.faults + config.status.touchs) then
    let (line, len) ← line.printAll 0 reply.texts
    return line.bytes.take len
  else none

/-- The members of the object after the first. -/
def ReadDataReply.members (r : ReadDataReply) : List (CString × CString) :=
  [("R".toList, printInt r.R), ("E".toList, printInt r.E), ("D".toList, printInt r.D)] ++
    r.command.toList.map (fun item => ("Command".toList, item.msg)) ++
    [("ID".toList, printInt r.ID)] ++
    r.ring.toList.map (fun ring => ("Ring".toList, printInt ring))

/-- Together the texts are an object. -/
lemma ReadDataReply.texts_flatten (r : ReadDataReply) :
    r.texts.flatten = objectText ("F".toList, printInt r.F) r.members := by
  cases hcommand : r.command <;> cases hring : r.ring <;>
    simp [texts, members, objectText, memberText, hcommand, hring]

/-- The numbers printed are values of an `int`. -/
structure ReadDataReply.IntFields (r : ReadDataReply) : Prop where
  F : IsInt r.F
  R : IsInt r.R
  E : IsInt r.E
  D : IsInt r.D
  ID : IsInt r.ID
  ring : ∀ ring ∈ r.ring, IsInt ring

/-- The texts fit in `line` with a message of up to 500 characters. -/
lemma ReadDataReply.length_texts_lt {r : ReadDataReply} (h : r.IntFields)
    (hmsg : ∀ item ∈ r.command, item.msg.length ≤ 500) : r.texts.flatten.length < 1024 := by
  have hF := h.F.length_printInt
  have hR := h.R.length_printInt
  have hE := h.E.length_printInt
  have hD := h.D.length_printInt
  have hID := h.ID.length_printInt
  have hring : ∀ ring ∈ r.ring, (printInt ring).length ≤ 11 := fun ring hmem =>
    (h.ring ring hmem).length_printInt
  cases hcommand : r.command <;> cases hringNumber : r.ring <;>
    simp [texts, hcommand, hringNumber] at hmsg hring ⊢ <;> omega

/-- What is sent is what has been printed. -/
lemma readDataBody_eq (line : Buffer 1024) {config : Configuration} {q : Queue} {cmdid : ℤ}
    {reply : ReadDataReply} (hreply : readData config q cmdid = some reply)
    (hsum : IsInt (config.status.faults + config.status.touchs))
    (hfits : reply.texts.flatten.length < 1024) :
    readDataBody line config q cmdid = some reply.texts.flatten := by
  obtain ⟨b, hprint, hbegins, -⟩ := Buffer.printAll_begins line.begins_nil reply.texts
    (by simpa using hfits)
  rw [List.nil_append] at hprint hbegins
  rw [List.length_nil] at hprint
  simp only [readDataBody, hreply, hsum, hprint, Option.bind_eq_bind, Option.bind_some, if_true,
    Option.pure_def, Option.some.injEq]
  exact (List.prefix_iff_eq_take.mp hbegins).symm

/-! ## The messages -/

/-- A handler of the web manager queues the message, for a command main has received. -/
structure WebMessage (msg : CString) : Prop where
  queued : ∃ (config : Configuration) (datagram : List Char) (buffer : CString) (c : Command)
    (tokens : Tokens) (handler : Configuration → Tokens → ℕ → Option WebCall) (call : WebCall),
    receive datagram = some buffer ∧ parseLine buffer = some (.command c tokens) ∧
      webMgrEntries c = some handler ∧ IsInt config.status.numero ∧ IsInt config.bright ∧
      handler config tokens tokens.length = some call ∧ call.queued = some msg

lemma queued_webMgrSendMsg {config : Configuration} {source cmd msg : CString} {args : Tokens}
    {call : WebCall}
    (h : webMgrSendMsg config (source :: cmd :: args) (source :: cmd :: args).length = some call)
    (hmsg : call.queued = some msg) : msg = cmd ++ argsText args := by
  unfold webMgrSendMsg at h
  split_ifs at h
  · cases h
    cases hmsg
  · rw [joinTokens, List.take_length] at h
    cases h
    cases hmsg
    rfl

lemma queued_webMgrSendDefault {dflt : CString} {config : Configuration} {source cmd msg : CString}
    {args : Tokens} {call : WebCall}
    (h : webMgrSendDefault dflt config (source :: cmd :: args) (source :: cmd :: args).length =
      some call)
    (hmsg : call.queued = some msg) : msg = cmd ++ argsText args ∨ msg = dflt := by
  unfold webMgrSendDefault at h
  split_ifs at h
  · cases h
    cases hmsg
  · exact Or.inl (queued_webMgrSendMsg h hmsg)
  · cases h
    cases hmsg
    exact Or.inr rfl

/-- A number sent with its command. -/
lemma queued_number {name msg : CString} {n : ℤ} {tokens : Tokens} {call : WebCall}
    (h : (if fromSource scWebsrv tokens then some WebCall.ignored
      else some (.send (name ++ printInt n))) = some call)
    (hmsg : call.queued = some msg) : msg = name ++ printInt n := by
  split_ifs at h
  · cases h
    cases hmsg
  · cases h
    cases hmsg
    rfl

/-- Nothing longer than a datagram is queued. -/
lemma WebMessage.length_le {msg : CString} (h : WebMessage msg) : msg.length ≤ 500 := by
  obtain ⟨config, datagram, buffer, c, tokens, handler, call, hreceive, hline, hhandler, hnumero,
    hbright, hcall, hmsg⟩ := h.queued
  obtain ⟨source, word, args, rfl, hword, hbuffer, -, -, -⟩ := parseLine_text hline
  have hjoined : (c.cmd ++ argsText args).length ≤ 500 := by
    have hshort := receive_length hreceive
    rw [hbuffer, List.length_append, argsText_cons, List.length_append, List.length_cons, hword]
      at hshort
    rw [List.length_append]
    omega
  have hdefault : ∀ dflt : CString, dflt.length ≤ 500 →
      msg = c.cmd ++ argsText args ∨ msg = dflt → msg.length ≤ 500 := by
    rintro dflt hdflt (rfl | rfl)
    · exact hjoined
    · exact hdflt
  have hnumber : ∀ (name : CString) (n : ℤ), name.length ≤ 10 → IsInt n →
      msg = name ++ printInt n → msg.length ≤ 500 := by
    rintro name n hname hn rfl
    have := hn.length_printInt
    rw [List.length_append]
    omega
  cases c <;> cases hhandler
  case start | walk | down =>
    exact hdefault _ (by decide) (queued_webMgrSendDefault hcall hmsg)
  case int | stop | fail | ok | msg | reset =>
    rw [queued_webMgrSendMsg hcall hmsg]
    exact hjoined
  case exit =>
    cases hcall
    cases hmsg
  case turn => exact hnumber _ _ (by decide) hnumero (queued_number hcall hmsg)
  case bright => exact hnumber _ _ (by decide) hbright (queued_number hcall hmsg)

/-! ## Around the message -/

/-- An ASCII character other than a backslash. -/
def isQuiet (c : Char) : Bool := c != '\\' && decide (c.toNat < 0x80)

/-- A character of a printed number is quiet, and stands for itself in a literal. -/
lemma quiet_printInt {x : ℤ} {c : Char} (h : c ∈ printInt x) : isQuiet c = true ∧ Ordinary c := by
  have hbounds : c = '-' ∨ 48 ≤ c.toNat ∧ c.toNat ≤ 57 := (mem_printInt h).imp_right fun hd => by
    simpa [Char.isDigit, UInt32.le_iff_toNat_le] using hd
  rcases hbounds with rfl | ⟨hlo, hhi⟩
  · decide
  · have hquote : c ≠ '"' := by
      rintro rfl
      exact absurd hlo (by decide)
    have hbackslash : c ≠ '\\' := by
      rintro rfl
      exact absurd hhi (by decide)
    refine ⟨?_, hquote, hbackslash, by omega⟩
    rw [isQuiet, Bool.and_eq_true]
    exact ⟨bne_iff_ne.mpr hbackslash, decide_eq_true (by omega)⟩

@[simp] lemma all_isQuiet_printInt (x : ℤ) : (printInt x).all isQuiet = true :=
  List.all_eq_true.mpr fun _ hc => (quiet_printInt hc).1

lemma ascii_of_isQuiet {s : List Char} (h : s.all isQuiet = true) : ∀ c ∈ s, c.toNat < 0x80 := by
  intro c hc
  have hquiet := List.all_eq_true.mp h c hc
  rw [isQuiet, Bool.and_eq_true] at hquiet
  exact of_decide_eq_true hquiet.2

lemma backslash_notMem {s : List Char} (h : s.all isQuiet = true) : '\\' ∉ s := by
  intro hmem
  exact absurd (List.all_eq_true.mp h _ hmem) (by decide)

/-- The object with a message in it: what stands before and after it is quiet. -/
lemma ReadDataReply.texts_split {r : ReadDataReply} {item : QItem} (h : r.command = some item) :
    ∃ before after, r.texts.flatten =
        before ++ '"' :: (item.msg ++ '"' :: ',' :: '"' :: after) ∧
      before.all isQuiet = true ∧ after.all isQuiet = true := by
  refine ⟨"\x7b\"F\":\"".toList ++ printInt r.F ++ "\",\"R\":\"".toList ++ printInt r.R ++
    "\",\"E\":\"".toList ++ printInt r.E ++ "\",\"D\":\"".toList ++ printInt r.D ++
    "\",\"Command\":".toList, "ID\":\"".toList ++ printInt r.ID ++ "\"".toList ++
    (r.ring.toList.map fun ring =>
      ",\"Ring\":\"".toList ++ printInt ring ++ "\"".toList).flatten ++ "\x7d".toList, ?_, ?_, ?_⟩
  · simp [texts, h]
  · simp only [List.all_append, all_isQuiet_printInt, Bool.and_true]
    decide
  · cases r.ring <;>
      simp only [Option.toList, List.map_nil, List.map_cons, List.flatten_nil, List.flatten_cons,
        List.all_append, all_isQuiet_printInt, Bool.and_true] <;> decide

/-- Without a message, all of it is quiet. -/
lemma ReadDataReply.texts_quiet {r : ReadDataReply} (h : r.command = none) :
    r.texts.flatten.all isQuiet = true := by
  cases hring : r.ring <;>
    simp only [texts, h, hring, Option.toList, List.map_nil, List.map_cons, List.nil_append,
      List.cons_append, List.append_nil, List.flatten_cons, List.flatten_nil, List.all_append,
      all_isQuiet_printInt, Bool.and_true] <;> decide

/-- All but the message are literals as they should be. -/
lemma ReadDataReply.ordinary_members {r : ReadDataReply}
    (hmsg : ∀ item ∈ r.command, ∀ c ∈ item.msg, Ordinary c) :
    ∀ m ∈ ("F".toList, printInt r.F) :: r.members,
      (∀ c ∈ m.1, Ordinary c) ∧ ∀ c ∈ m.2, Ordinary c := by
  have hmember : ∀ name text : CString, name.all (fun c => decide (Ordinary c)) = true →
      (∀ c ∈ text, Ordinary c) →
        (∀ c ∈ (name, text).1, Ordinary c) ∧ ∀ c ∈ (name, text).2, Ordinary c :=
    fun name text hname htext =>
      ⟨fun c hc => of_decide_eq_true (List.all_eq_true.mp hname c hc), htext⟩
  have hnumber : ∀ x : ℤ, ∀ c ∈ printInt x, Ordinary c := fun x c hc => (quiet_printInt hc).2
  intro m hm
  simp only [members, List.mem_cons, List.mem_append, List.mem_map, Option.mem_toList,
    List.not_mem_nil, or_false] at hm
  rcases hm with rfl | (((rfl | rfl | rfl) | ⟨item, hitem, rfl⟩) | rfl) | ⟨ring, -, rfl⟩
  · exact hmember _ _ (by decide) (hnumber _)
  · exact hmember _ _ (by decide) (hnumber _)
  · exact hmember _ _ (by decide) (hnumber _)
  · exact hmember _ _ (by decide) (hnumber _)
  · exact hmember _ _ (by decide) (hmsg item hitem)
  · exact hmember _ _ (by decide) (hnumber _)
  · exact hmember _ _ (by decide) (hnumber _)

/-- The text is UTF-8 exactly if the message in it is. -/
lemma ReadDataReply.valid_texts_iff (r : ReadDataReply) :
    Utf8.Valid r.texts.flatten ↔ ∀ item ∈ r.command, Utf8.Valid item.msg := by
  cases hcommand : r.command with
  | none => simp [Utf8.valid_of_ascii (ascii_of_isQuiet (texts_quiet hcommand))]
  | some item =>
    obtain ⟨before, after, htext, hbefore, hafter⟩ := texts_split hcommand
    have hrest : ∀ c ∈ ',' :: '"' :: after, c.toNat < 0x80 := by
      refine ascii_of_isQuiet ?_
      rw [List.all_cons, List.all_cons, hafter]
      decide
    have hquote : '"'.toNat < 0x80 := by decide
    rw [htext, Utf8.valid_append_cons_iff hquote, Utf8.valid_append_cons_iff hquote]
    simp [Utf8.valid_of_ascii hrest, Utf8.valid_of_ascii (ascii_of_isQuiet hbefore)]

/-! ## What the browser reads -/

/-- The members are the values of the status, the count, and the message if there is one. -/
structure TellsStatus (config : Configuration) (cmdid : ℤ) (command : Option QItem)
    (ms : List (CString × Value)) : Prop where
  F : field ms "F".toList =
    some (.string (printInt (config.status.faults + config.status.touchs)))
  R : field ms "R".toList = some (.string (printInt config.status.refusals))
  E : field ms "E".toList = some (.string (printInt config.status.eliminated))
  D : field ms "D".toList = some (.string (printInt config.status.numero))
  ID : field ms "ID".toList = some (.string (printInt cmdid))
  command : field ms "Command".toList = command.map fun item => .string item.msg

/-- The members are as they should be, with or without the number of the ring. -/
lemma tellsStatus_members (config : Configuration) (cmdid : ℤ) (command : Option QItem)
    (ring : Option ℤ) :
    let r : ReadDataReply :=
      { F := config.status.faults + config.status.touchs, R := config.status.refusals
        E := config.status.eliminated, D := config.status.numero, command := command, ID := cmdid
        ring := ring }
    TellsStatus config cmdid command
      ((("F".toList, printInt r.F) :: r.members).map stringMember) := by
  cases command <;> cases ring <;> exact ⟨rfl, rfl, rfl, rfl, rfl, rfl⟩

/-- The values printed are values of an `int`. -/
structure PrintedInts (config : Configuration) : Prop where
  refusals : IsInt config.status.refusals
  eliminated : IsInt config.status.eliminated
  numero : IsInt config.status.numero
  ring : IsInt config.ring

/-- The body is a JSON object that tells the status. -/
def Tells (line : Buffer 1024) (config : Configuration) (q : Queue) (cmdid : ℤ)
    (command : Option QItem) : Prop :=
  ∃ body ms, readDataBody line config q cmdid = some body ∧ Denotes body (.object ms) ∧
    TellsStatus config cmdid command ms

/-- The message `readData` picks for a count. -/
def pickFor (q : Queue) (cmdid : ℤ) : Option (Option QItem) :=
  queuePick q (if cmdid ≤ 0 then -1 else cmdid)

lemma tells_iff (line : Buffer 1024) {config : Configuration} (hconfig : PrintedInts config)
    {q : Queue} {cmdid : ℤ} (hcmdid : IsInt cmdid) {command : Option QItem}
    (hpick : pickFor q cmdid = some command) (hmsg : ∀ item ∈ command, item.msg.length ≤ 500) :
    Tells line config q cmdid command ↔
      IsInt (config.status.faults + config.status.touchs) ∧ ∀ item ∈ command, Plain item.msg := by
  let reply : ReadDataReply :=
    { F := config.status.faults + config.status.touchs, R := config.status.refusals
      E := config.status.eliminated, D := config.status.numero, command := command, ID := cmdid
      ring := if cmdid = 0 then some config.ring else none }
  have hreply : readData config q cmdid = some reply := by
    unfold pickFor at hpick
    rw [readData, hpick]
    rfl
  by_cases hsum : IsInt (config.status.faults + config.status.touchs)
  swap
  · refine iff_of_false ?_ fun h => hsum h.1
    rintro ⟨body, ms, hbody, -⟩
    simp [readDataBody, hreply, hsum] at hbody
  have hints : reply.IntFields := by
    refine ⟨hsum, hconfig.refusals, hconfig.eliminated, hconfig.numero, hcmdid, ?_⟩
    intro ring hring
    have hif : (if cmdid = 0 then some config.ring else none) = some ring := hring
    split_ifs at hif
    cases hif
    exact hconfig.ring
  have hbody := readDataBody_eq line hreply hsum (reply.length_texts_lt hints hmsg)
  constructor
  · rintro ⟨body, ms, hbody', hdenotes, htells⟩
    obtain rfl : reply.texts.flatten = body := Option.some.inj (hbody.symm.trans hbody')
    refine ⟨hsum, fun item hitem => ?_⟩
    have hcommand : reply.command = some item := hitem
    obtain ⟨before, after, htext, hbefore, hafter⟩ := reply.texts_split hcommand
    have hvalid := reply.valid_texts_iff.mp hdenotes.utf8 item hcommand
    have hfield : field ms "Command".toList = some (.string item.msg) := by
      rw [htells.command, hitem]
      rfl
    have hread := hdenotes.readsString hfield
    rw [htext] at hread
    refine ⟨hvalid, ordinary_of_readsString (backslash_notMem hbefore) ?_ hread⟩
    simpa using backslash_notMem hafter
  · rintro ⟨-, hplain⟩
    refine ⟨_, ((_, _) :: reply.members).map stringMember, hbody, ?_,
      tellsStatus_members config cmdid command _⟩
    · have hvalid := reply.valid_texts_iff.mpr fun item hitem => (hplain item hitem).utf8
      rw [reply.texts_flatten] at hvalid ⊢
      exact denotes_objectText hvalid
        (reply.ordinary_members fun item hitem => (hplain item hitem).ordinary)

/-- **When the reply is the JSON it is meant to be.** With a queue that only the handlers of the
web manager have put messages into, exactly if the faults and the touches add up to an `int` and
the message picked, if any, is UTF-8 without quotes, backslashes and control characters. -/
theorem readDataBody_tells_iff (line : Buffer 1024) {ops : List QueueOp}
    (hops : ∀ now msg, .put now msg ∈ ops → WebMessage msg) {config : Configuration}
    (hconfig : PrintedInts config) {cmdid : ℤ} (hcmdid : IsInt cmdid) :
    ∃ q command, run queueOpStep queueCreate ops = some q ∧ pickFor q cmdid = some command ∧
      (Tells line config q cmdid command ↔
        IsInt (config.status.faults + config.status.touchs) ∧
          ∀ item ∈ command, Plain item.msg) := by
  obtain ⟨q, held, hrun, hq, hheld⟩ := messages_run represents_queueCreate (by simp) hops
  have hpick : pickFor q cmdid = some _ := queuePick_spec hq _
  refine ⟨q, _, hrun, hpick, tells_iff line hconfig hcmdid hpick fun item hitem => ?_⟩
  exact (hheld item (pickHeld_eq_some hq.indexed hitem).1).length_le

/-- A message queued for a line that has no terminator in it. -/
lemma webMessage_of_line (line : CString) (tokens : Tokens) {msg : CString}
    (hlength : line.length < 500) (hnul : cstr line = line)
    (hline : parseLine line = some (.command .msg tokens))
    (hmsg : webMgrSendMsg defaultOptions tokens tokens.length = some (.send msg)) :
    WebMessage msg :=
  ⟨defaultOptions, line, line, .msg, tokens, webMgrSendMsg, .send msg,
    by rw [receive, if_pos hlength, hnul], hline, rfl, by decide, by decide, hmsg, rfl⟩

lemma webMessage_hola : WebMessage "msg 5 hola".toList :=
  webMessage_of_line "console msg 5 hola".toList
    ["console".toList, "msg".toList, "5".toList, "hola".toList]
    (by decide) (by decide) (by decide) (by decide)

lemma webMessage_quoted : WebMessage "msg 5 \"hola\"".toList :=
  webMessage_of_line "console msg 5 \"hola\"".toList
    ["console".toList, "msg".toList, "5".toList, "\"hola\"".toList]
    (by decide) (by decide) (by decide) (by decide)

lemma printedInts_defaultOptions : PrintedInts defaultOptions := by
  refine ⟨?_, ?_, ?_, ?_⟩ <;> decide

/-- A message from a console, for a browser that has just been opened. -/
theorem readDataBody_tells_iff_hola :
    ∃ q command, run queueOpStep queueCreate [.put 0 "msg 5 hola".toList] = some q ∧
      pickFor q 0 = some command ∧
      (Tells (Buffer.zero 1024) defaultOptions q 0 command ↔
        IsInt (defaultOptions.status.faults + defaultOptions.status.touchs) ∧
          ∀ item ∈ command, Plain item.msg) := by
  refine readDataBody_tells_iff _ (fun now msg hmem => ?_) printedInts_defaultOptions (by decide)
  cases List.mem_singleton.mp hmem
  exact webMessage_hola

/-- A message with quotes in it. -/
theorem readDataBody_quoted : ¬ ∀ (line : Buffer 1024) (ops : List QueueOp)
    (config : Configuration) (cmdid : ℤ), (∀ now msg, .put now msg ∈ ops → WebMessage msg) →
      PrintedInts config → IsInt cmdid →
        ∃ q command, run queueOpStep queueCreate ops = some q ∧ pickFor q cmdid = some command ∧
          Tells line config q cmdid command := by
  intro h
  obtain ⟨q, command, hrun, hpick, htells⟩ := h (Buffer.zero 1024)
    [.put 0 "msg 5 \"hola\"".toList] defaultOptions 0 (fun now msg hmem => by
      cases List.mem_singleton.mp hmem
      exact webMessage_quoted) printedInts_defaultOptions (by decide)
  cases hrun
  cases hpick
  have hplain := ((tells_iff _ printedInts_defaultOptions (by decide) rfl
    (by simp)).mp htells).2 _ rfl
  exact absurd (hplain.ordinary '"' (by decide)) (by decide)

end SerialChrono
