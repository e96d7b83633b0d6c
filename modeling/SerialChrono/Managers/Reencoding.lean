import SerialChrono.Bounds
import SerialChrono.Generic.RoundTrip
import SerialChrono.Managers.Ajax

/-!
# The buffers a command is written into again

A command main has received leaves the program as text: `ajax_mgr_msg` writes the words of a
message into a buffer of 512 bytes with `%20` between them, `web_mgr_sendMsg` writes a command
into one of 1024 with blanks, and `module_write` into another of 1024 with blanks and the end of
a line.  None of the three counts the bytes before it writes.  Here the handlers are given with
their buffers, whatever an earlier use has left there; where the text fits they are the handlers
of `Managers/Ajax.lean` and `Managers/Web.lean`.

The two larger buffers have room for every datagram main can receive.  The smaller one has not:
each blank between the words of a message grows by two bytes (`reencodings_fit_iff`).
-/

namespace SerialChrono

open CText CBuffer

/-! ## The handlers and their buffers -/

/-- `ajax_mgr_msg`, with `buff` as it finds it. -/
def ajaxMgrMsgBuff (buff : Buffer 512) (config : Configuration) (tokens : Tokens)
    (ntokens : ℕ) : Option AjaxCall :=
  if fromSource scAjaxsrv tokens then some (.returns 0)
  else do
    let duration ← tokens[2]?
    let first ← tokens[3]?
    let rest := ((tokens.take ntokens).drop 4).map fun token => "%20".toList ++ token
    let (buff, _) ← buff.printAll 0 ((duration ++ ':' :: first) :: rest)
    return ajaxMgrPut "command".toList (some ⟨"8".toList, buff.text, 0, 0, 0⟩) false config tokens

/-- `web_mgr_sendMsg`, with `buffer` as it finds it. -/
def webMgrSendMsgBuffer (buffer : Buffer 1024) (_config : Configuration) (tokens : Tokens)
    (ntokens : ℕ) : Option WebCall :=
  if fromSource scWebsrv tokens then some .ignored
  else do
    let cmd ← tokens[1]?
    let rest := ((tokens.take ntokens).drop 2).map fun token => ' ' :: token
    let (buffer, len) ← buffer.printAll 0 (cmd :: rest)
    return ⟨len, some buffer.text⟩

/-- No token has a terminator in it. -/
def TokensTerminated (tokens : Tokens) : Prop := ∀ token ∈ tokens, '\x00' ∉ token

lemma TokensTerminated.nul_notMem {tokens : Tokens} (h : TokensTerminated tokens)
    {sep : CString} (hsep : '\x00' ∉ sep) (ntokens first : ℕ) :
    '\x00' ∉ (((tokens.take ntokens).drop first).map (sep ++ ·)).flatten := by
  intro hnul
  obtain ⟨text, htext, hnul⟩ := List.mem_flatten.mp hnul
  obtain ⟨token, htoken, rfl⟩ := List.mem_map.mp htext
  rcases List.mem_append.mp hnul with hnul | hnul
  · exact hsep hnul
  · exact h token (List.mem_of_mem_take (List.mem_of_mem_drop htoken)) hnul

/-- The message in the buffer is the one published. -/
theorem ajaxMgrMsgBuff_eq {buff : Buffer 512} {config : Configuration} {tokens : Tokens}
    {ntokens : ℕ} {call : AjaxCall} (htokens : TokensTerminated tokens)
    (h : ajaxMgrMsgBuff buff config tokens ntokens = some call) :
    ajaxMgrMsg config tokens ntokens = some call := by
  unfold ajaxMgrMsgBuff at h
  unfold ajaxMgrMsg
  split_ifs at h ⊢ with hsource
  · exact h
  · obtain ⟨duration, hduration, h⟩ := Option.bind_eq_some_iff.mp h
    obtain ⟨first, hfirst, h⟩ := Option.bind_eq_some_iff.mp h
    obtain ⟨⟨buff', len⟩, hprint, h⟩ := Option.bind_eq_some_iff.mp h
    have hnul : '\x00' ∉ ((duration ++ ':' :: first) ::
        ((tokens.take ntokens).drop 4).map ("%20".toList ++ ·)).flatten := by
      have hd := htokens duration (List.mem_of_getElem? hduration)
      have hf := htokens first (List.mem_of_getElem? hfirst)
      rw [List.flatten_cons, List.mem_append, not_or]
      exact ⟨by simp [hd, hf], htokens.nul_notMem (by decide) ntokens 4⟩
    have htext := (Buffer.text_of_printAll hprint hnul).1
    rw [List.flatten_cons, ← List.flatMap_def] at htext
    simp only [hduration, hfirst, Option.bind_eq_bind, Option.bind_some, ← h, ← htext]

/-- The command in the buffer is the one queued, with its length. -/
theorem webMgrSendMsgBuffer_eq {buffer : Buffer 1024} {config : Configuration} {tokens : Tokens}
    {ntokens : ℕ} {call : WebCall} (htokens : TokensTerminated tokens)
    (h : webMgrSendMsgBuffer buffer config tokens ntokens = some call) :
    webMgrSendMsg config tokens ntokens = some call := by
  unfold webMgrSendMsgBuffer at h
  unfold webMgrSendMsg
  split_ifs at h ⊢ with hsource
  · exact h
  · obtain ⟨cmd, hcmd, h⟩ := Option.bind_eq_some_iff.mp h
    obtain ⟨⟨buffer', len⟩, hprint, h⟩ := Option.bind_eq_some_iff.mp h
    have hnul : '\x00' ∉ (cmd :: ((tokens.take ntokens).drop 2).map ([' '] ++ ·)).flatten := by
      have hc := htokens cmd (List.mem_of_getElem? hcmd)
      rw [List.flatten_cons, List.mem_append, not_or]
      exact ⟨hc, htokens.nul_notMem (by decide) ntokens 2⟩
    obtain ⟨htext, hlen⟩ := Buffer.text_of_printAll hprint hnul
    rw [List.flatten_cons, ← List.flatMap_def] at htext hlen
    have hjoin : joinTokens tokens ntokens = some buffer'.text := by
      rw [joinTokens, hcmd, htext]
      rfl
    rw [hjoin, ← h, hlen, ← htext]
    rfl

/-! ## The tokens in their line -/

lemma length_flatten_map (sep : CString) (tokens : Tokens) :
    (tokens.map (sep ++ ·)).flatten.length =
      tokens.flatten.length + sep.length * tokens.length := by
  induction tokens with
  | nil => simp
  | cons token tokens ih =>
    rw [List.map_cons, List.flatten_cons, List.flatten_cons, List.length_append, ih]
    simp only [List.length_append, List.length_cons, Nat.mul_succ]
    omega

lemma length_argsText (args : Tokens) :
    (argsText args).length = args.flatten.length + args.length := by
  rw [argsText, List.flatMap_def]
  have h := length_flatten_map [' '] args
  rwa [List.length_singleton, Nat.one_mul] at h

/-- A line is its pieces with blanks between them. -/
lemma splitOn_blank {line first : CString} {rest : Tokens}
    (h : line.splitOn ' ' = first :: rest) : line = first ++ argsText rest ∧ ' ' ∉ first := by
  constructor
  · have hjoin : List.intercalate [' '] (line.splitOn ' ') = line := List.intercalate_splitOn ' '
    rw [h, intercalate_eq_append_flatMap] at hjoin
    exact hjoin.symm
  · exact separator_notMem_splitOn first (h ▸ List.mem_cons_self)

/-- The text of a line main dispatches: the tokens with blanks between them, but for the case of
the command word. -/
lemma parseLine_text {buffer : CString} {c : Command} {tokens : Tokens}
    (h : parseLine buffer = some (.command c tokens)) :
    ∃ source word args, tokens = source :: c.cmd :: args ∧ word.length = c.cmd.length ∧
      buffer = source ++ argsText (word :: args) ∧ ' ' ∉ source ∧ args.length ≤ 30 ∧
      buffer.count ' ' = args.length + 1 := by
  have hcount := length_splitOn ' ' buffer
  match hsplit : buffer.splitOn ' ' with
  | [] => exact absurd hsplit (List.splitOn_ne_nil ' ' buffer)
  | [source] => simp [parseLine, explode_eq, hsplit] at h
  | source :: word :: args =>
    obtain ⟨hline, hsource⟩ := splitOn_blank hsplit
    rw [parseLine_of_splitOn hsplit] at h
    rw [hsplit, List.length_cons, List.length_cons] at hcount
    split_ifs at h with hargs hword
    · cases h
    · obtain ⟨command, hcommand, h⟩ := Option.map_eq_some_iff.mp h
      cases h
      rw [← findCommand_eq_some hcommand]
      exact ⟨source, word, args, rfl, (List.length_map _).symm, hline, hsource, hargs, by omega⟩

/-- The tokens main hands over can be written as they are. -/
theorem tokensTerminated_of_receive {datagram : List Char} {buffer : CString} {c : Command}
    {tokens : Tokens} (hreceive : receive datagram = some buffer)
    (hline : parseLine buffer = some (.command c tokens)) : TokensTerminated tokens := by
  obtain ⟨source, word, args, rfl, -, hbuffer, -, -, -⟩ := parseLine_text hline
  have hnul : '\x00' ∉ buffer := by
    unfold receive at hreceive
    split_ifs at hreceive
    cases hreceive
    exact nul_notMem_cstr datagram
  rw [hbuffer, List.mem_append, not_or] at hnul
  obtain ⟨hsource, hrest⟩ := hnul
  intro token htoken
  rcases List.mem_cons.mp htoken with rfl | htoken
  · exact hsource
  rcases List.mem_cons.mp htoken with rfl | htoken
  · cases c <;> decide
  · intro hmem
    exact hrest (List.mem_flatMap.mpr
      ⟨token, List.mem_cons_of_mem _ htoken, List.mem_cons_of_mem _ hmem⟩)

/-! ## What fits -/

lemma ajaxMgrMsgBuff_isSome_iff (buff : Buffer 512) (config : Configuration)
    (source cmd duration first : CString) (rest : Tokens) :
    (ajaxMgrMsgBuff buff config (source :: cmd :: duration :: first :: rest)
        (source :: cmd :: duration :: first :: rest).length).isSome = true ↔
      source = scAjaxsrv ∨
        duration.length + 1 + first.length + rest.flatten.length + 3 * rest.length < 512 := by
  have hprint := buff.printAll_isSome_iff 0 (duration ++ ':' :: first)
    (rest.map ("%20".toList ++ ·))
  have hlength := length_flatten_map "%20".toList rest
  rw [show "%20".toList.length = 3 from rfl] at hlength
  rw [List.flatten_cons, List.length_append, hlength, List.length_append, List.length_cons]
    at hprint
  unfold ajaxMgrMsgBuff fromSource
  by_cases hsource : source = scAjaxsrv
  · simp [hsource]
  · have hroom : (buff.printAll 0 ((duration ++ ':' :: first) ::
        rest.map ("%20".toList ++ ·))).isSome = true ↔
        duration.length + 1 + first.length + rest.flatten.length + 3 * rest.length < 512 := by
      rw [hprint]
      omega
    rw [or_iff_right hsource, ← hroom]
    simp only [List.head?_cons, beq_iff_eq, Option.some.injEq, hsource, if_false,
      List.getElem?_cons_succ, List.getElem?_cons_zero, Option.bind_eq_bind, Option.bind_some,
      List.take_length, List.drop_succ_cons, List.drop_zero, Option.isSome_bind, Option.pure_def,
      Option.isSome_some, Option.any_true]

lemma webMgrSendMsgBuffer_isSome (buffer : Buffer 1024) (config : Configuration)
    (source cmd : CString) (args : Tokens) (hfits : cmd.length + (argsText args).length < 1024) :
    (webMgrSendMsgBuffer buffer config (source :: cmd :: args)
      (source :: cmd :: args).length).isSome = true := by
  have hprint : (buffer.printAll 0 (cmd :: args.map fun token => ' ' :: token)).isSome = true := by
    rw [buffer.printAll_isSome_iff, List.flatten_cons, ← List.flatMap_def, List.length_append,
      Nat.zero_add]
    exact hfits
  unfold webMgrSendMsgBuffer
  split_ifs
  · rfl
  · simpa only [List.getElem?_cons_succ, List.getElem?_cons_zero, Option.bind_eq_bind,
      Option.bind_some, List.take_length, List.drop_succ_cons, List.drop_zero, Option.isSome_bind,
      Option.pure_def, Option.isSome_some, Option.any_true] using hprint

lemma genericWrite_isSome (buffer : Buffer 1024) (source cmd : CString) (args : Tokens)
    (hfits : cmd.length + (argsText args).length + 2 < 1024) :
    (genericWrite buffer (source :: cmd :: args) (source :: cmd :: args).length).isSome = true := by
  rw [← length_lineText] at hfits
  obtain ⟨buffer', hwrite, -⟩ := genericWrite_begins buffer source cmd args hfits
  exact Option.isSome_iff_exists.mpr ⟨_, hwrite⟩

/-- The handlers that write a command into a buffer again stay within it, with the terminator.
A message of fewer than four tokens has no text for `ajax_mgr_msg` to write. -/
structure ReencodingsFit (config : Configuration) (c : Command) (tokens : Tokens) : Prop where
  ajax : c = .msg → 4 ≤ tokens.length →
    ∀ buff, (ajaxMgrMsgBuff buff config tokens tokens.length).isSome = true
  web : ∀ buffer, (webMgrSendMsgBuffer buffer config tokens tokens.length).isSome = true
  generic : ∀ buffer, (genericWrite buffer tokens tokens.length).isSome = true

/-- The source a line begins with. -/
def lineSource (buffer : CString) : CString := buffer.takeWhile (· ≠ ' ')

/-- **What can be written again.** Of the commands main can receive, exactly the messages that are
too long for 512 bytes with two more bytes for each blank do not fit: the source, the command word
and the blanks around them are not part of the text. -/
theorem reencodings_fit_iff (config : Configuration) {datagram : List Char} {buffer : CString}
    {c : Command} {tokens : Tokens} (hreceive : receive datagram = some buffer)
    (hline : parseLine buffer = some (.command c tokens)) :
    ReencodingsFit config c tokens ↔
      (c = .msg → lineSource buffer ≠ scAjaxsrv → 3 ≤ buffer.count ' ' →
        buffer.length + 2 * buffer.count ' ' ≤ 522 + (lineSource buffer).length) := by
  obtain ⟨source, word, args, rfl, hword, hbuffer, hblank, hargs, hcount⟩ := parseLine_text hline
  have hshort := receive_length hreceive
  have hsource : lineSource buffer = source := by
    rw [lineSource, hbuffer, argsText_cons, List.cons_append, takeWhile_ne_append hblank,
      List.takeWhile_cons_of_neg (by simp), List.append_nil]
  have hlength : buffer.length = source.length + (1 + c.cmd.length + (argsText args).length) := by
    rw [hbuffer, List.length_append, argsText_cons, List.length_append, List.length_cons, hword]
    omega
  have hweb : c.cmd.length + (argsText args).length < 1024 := by omega
  have hgeneric : c.cmd.length + (argsText args).length + 2 < 1024 := by omega
  -- the other two always fit
  have hajax : ReencodingsFit config c (source :: c.cmd :: args) ↔
      (c = .msg → 4 ≤ (source :: c.cmd :: args).length → ∀ buff,
        (ajaxMgrMsgBuff buff config (source :: c.cmd :: args)
          (source :: c.cmd :: args).length).isSome = true) :=
    ⟨ReencodingsFit.ajax, fun h => ⟨h, fun b => webMgrSendMsgBuffer_isSome b config source _ _ hweb,
      fun b => genericWrite_isSome b source _ _ hgeneric⟩⟩
  rw [hajax, hsource, hcount]
  match args with
  | [] =>
    exact iff_of_true (fun _ hfour => absurd hfour (by simp)) fun _ _ hthree => by simp at hthree
  | [duration] =>
    exact iff_of_true (fun _ hfour => absurd hfour (by simp)) fun _ _ hthree => by simp at hthree
  | duration :: first :: rest =>
    have hmsg : c = .msg → c.cmd.length = 3 := by
      rintro rfl
      rfl
    have htext := length_argsText (duration :: first :: rest)
    simp only [List.flatten_cons, List.length_append, List.length_cons] at htext hcount ⊢
    constructor
    · intro hfit hc hother _
      have hroom := (ajaxMgrMsgBuff_isSome_iff (Buffer.zero 512) config source c.cmd duration first
        rest).mp (hfit hc (by omega) _)
      have := hroom.resolve_left hother
      have := hmsg hc
      omega
    · intro hroom hc _ buff
      have hencoded := ajaxMgrMsgBuff_isSome_iff buff config source c.cmd duration first rest
      rw [List.length_cons, List.length_cons, List.length_cons, List.length_cons] at hencoded
      rw [hencoded, or_iff_not_imp_left]
      intro hother
      have := hroom hc hother (by omega)
      have := hmsg hc
      omega

/-- A message of one word. -/
theorem reencodings_fit_iff_one_word :
    ReencodingsFit defaultOptions .msg
      ["console".toList, "msg".toList, "5".toList, "hola".toList] := by
  have hreceive : receive "console msg 5 hola".toList = some "console msg 5 hola".toList := by
    decide
  exact (reencodings_fit_iff defaultOptions hreceive (by decide)).mpr fun _ _ _ => by decide

/-- A message of 470 bytes with 31 blanks. -/
def longMessage : CString :=
  "console msg 1 ".toList ++ List.replicate 400 'x' ++ (List.replicate 28 " x".toList).flatten

/-- Two bytes more for each blank are too many for `buff`. -/
theorem reencodings_overflow : ¬ ∀ (config : Configuration) (datagram : List Char)
    (buffer : CString) (c : Command) (tokens : Tokens), receive datagram = some buffer →
      parseLine buffer = some (.command c tokens) → ReencodingsFit config c tokens := by
  intro h
  let tokens : Tokens := "console".toList :: "msg".toList :: "1".toList ::
    List.replicate 400 'x' :: List.replicate 28 "x".toList
  have hfit := (h defaultOptions longMessage longMessage .msg tokens (by decide +kernel)
    (by decide +kernel)).ajax rfl (by decide +kernel) (Buffer.zero 512)
  have hover : (ajaxMgrMsgBuff (Buffer.zero 512) defaultOptions tokens tokens.length).isSome =
      false := by decide +kernel
  rw [hover] at hfit
  cases hfit

end SerialChrono
