import SerialChrono.Events.Decode
import SerialChrono.Library.UrlQuery
import SerialChrono.Managers.Ajax

/-!
# A message through the server

A message for the displays is published as an event with operation 8: `ajax_mgr_msg` puts the
seconds, a colon and the words into the value of a query, with `%20` between the words, and
`process_eventData` makes the command of another instance from the value the server has read.
Between the two the value is part of a URL, and only the blanks have been encoded for that:
`survives_iff` says which messages come out as they went in.
-/

namespace SerialChrono

open CText UrlQuery

/-- The command a message comes back as. -/
def msgCommand (seconds : CString) (words : Tokens) : CString :=
  "msg ".toList ++ seconds ++ ' ' :: List.intercalate [' '] words ++ "\n".toList

lemma msgCommand_eq (seconds : CString) (words : Tokens) : msgCommand seconds words =
    "msg ".toList ++ seconds ++ ' ' :: List.intercalate [' '] words ++ "\n".toList := rfl

/-- A message for the displays, of visible characters, from another source than the server, that
fits the 256 bytes of `result`. -/
structure TextMessage where
  source : CString
  seconds : CString
  first : CString
  rest : Tokens
  source_ne : source ≠ scAjaxsrv
  seconds_digits : ∀ c ∈ seconds, c.isDigit = true
  visible : ∀ word ∈ first :: rest, ∀ c ∈ word, 0x21 ≤ c.toNat ∧ c.toNat ≤ 0x7E
  fits : (msgCommand seconds (first :: rest)).length < 256

namespace TextMessage

def words (m : TextMessage) : Tokens := m.first :: m.rest

/-- The tokens of its command. -/
def tokens (m : TextMessage) : Tokens :=
  m.source :: "msg".toList :: m.seconds :: m.first :: m.rest

end TextMessage

/-- What the query of an event continues with after `Value=`. -/
def queryAfterValue (d : ExtraData) : CString :=
  d.value ++ (extraParams (some d)).tail.flatMap fun p => '&' :: p.1 ++ '=' :: p.2

/-- The data of an event the server delivers: not the event of the instance that reads it, with
the type and the operation it was published with, and with the value the server has read. -/
structure Delivered (event : PutEvent) (d : ExtraData) (receiver : Configuration)
    (rdata : Json) : Prop where
  other : rdata.getPropertyValue "SessionName".toList ≠ some (getSessionName receiver)
  type : rdata.getPropertyValue "Type".toList = some event.type
  oper : rdata.getPropertyValue "Oper".toList = some d.oper
  value : rdata.getPropertyValue "Value".toList = some (paramValue (queryAfterValue d))

/-- The message is published, and every instance that is sent the event makes the command of the
message from it. -/
def TextMessage.Survives (m : TextMessage) : Prop :=
  ∀ sender, ∃ event d, ajaxMgrMsg sender m.tokens m.tokens.length = some (.putEvent event) ∧
    event.data = some d ∧ ∀ receiver rdata, Delivered event d receiver rdata →
      processEventTree libcNull receiver rdata =
        some (receiver, some (msgCommand m.seconds m.words))

/-! ## On the way to the server -/

namespace TextMessage

variable (m : TextMessage)

/-- The data the message is published with. -/
def data : ExtraData :=
  ⟨"8".toList, m.seconds ++ ':' :: m.first ++ m.rest.flatMap fun w => "%20".toList ++ w, 0, 0, 0⟩

lemma ajaxMgrMsg_tokens (sender : Configuration) :
    ajaxMgrMsg sender m.tokens m.tokens.length =
      some (.putEvent ⟨sender, "command".toList, some m.data, false⟩) := by
  have hsource : fromSource scAjaxsrv m.tokens = false := by
    simpa [fromSource, tokens] using m.source_ne
  unfold ajaxMgrMsg ajaxMgrPut
  rw [hsource]
  simp [tokens, data]

/-- The text the server reads for the words of the message. -/
def received : CString := paramValue (m.first ++ m.rest.flatMap fun w => "%20".toList ++ w)

lemma colon_notMem_seconds : ':' ∉ m.seconds :=
  fun h => absurd (m.seconds_digits _ h) (by decide)

lemma paramValue_data : paramValue (queryAfterValue m.data) = m.seconds ++ ':' :: m.received := by
  have hliteral : ∀ c ∈ m.seconds ++ [':'], c ≠ '&' ∧ c ≠ '#' ∧ c ≠ '+' ∧ c ≠ '%' := by
    intro c hc
    rcases List.mem_append.mp hc with hc | hc
    · have hdigit := m.seconds_digits c hc
      refine ⟨?_, ?_, ?_, ?_⟩ <;> (rintro rfl; exact absurd hdigit (by decide))
    · obtain rfl := List.mem_singleton.mp hc
      decide
  have hquery : queryAfterValue m.data =
      (m.seconds ++ [':']) ++ (m.first ++ m.rest.flatMap fun w => "%20".toList ++ w) ++
        '&' :: ("Tiempo=0&Oper=8&stop=0&start=0".toList) := by
    simp [queryAfterValue, data, extraParams]
    decide
  rw [hquery, paramValue_append_amp, paramValue_append hliteral, received]
  simp

/-! ## On the way back -/

/-- The command made from what the server delivers. -/
lemma processEventTree_delivered {sender receiver : Configuration} {rdata : Json}
    (h : Delivered ⟨sender, "command".toList, some m.data, false⟩ m.data receiver rdata) :
    processEventTree libcNull receiver rdata =
      some (receiver, some (("msg ".toList ++ m.seconds ++ ' ' :: m.received ++
        "\n".toList).take 255)) := by
  have hcommand : eventCommand libcNull receiver.status rdata = some (receiver.status,
      "msg ".toList ++ m.seconds ++ ' ' :: m.received ++ "\n".toList) := by
    have hvalue := h.value
    rw [paramValue_data] at hvalue
    have hsplit := splitMessage_append m.colon_notMem_seconds m.received
    simp only [eventCommand, h.oper, data, Option.bind_eq_bind, Option.bind_some, if_true, hvalue,
      hsplit, printPointer_some, Option.pure_def]
  rw [processEventTree, if_neg h.other, h.type]
  change ((eventHandler libcNull .command receiver.status rdata).bind _) = _
  rw [eventHandler, hcommand]
  rfl

lemma length_received_le : m.received.length ≤ (List.intercalate [' '] m.words).length := by
  rw [words, intercalate_eq_append_flatMap]
  exact length_paramValue_words_le m.first m.rest

/-- **Which messages survive.** Those without a `&`, a `#` or a `+`, and without a `%` before two
hexadecimal digits. -/
theorem survives_iff : m.Survives ↔ ∀ word ∈ m.words, Unreserved word := by
  have hreceived : m.received = List.intercalate [' '] m.words ↔
      ∀ word ∈ m.words, Unreserved word := by
    rw [words, intercalate_eq_append_flatMap]
    exact paramValue_words_iff m.first m.rest
  have hlength := m.length_received_le
  have hroom : ("msg ".toList ++ m.seconds ++ ' ' :: m.received ++ "\n".toList).length ≤ 255 := by
    have hfits := m.fits
    rw [msgCommand_eq, ← words] at hfits
    simp only [List.length_append, List.length_cons] at hfits ⊢
    omega
  rw [← hreceived]
  constructor
  · intro h
    obtain ⟨event, d, hpublished, hdata, hdelivered⟩ := h defaultOptions
    rw [ajaxMgrMsg_tokens] at hpublished
    cases hpublished
    cases hdata
    -- an event from an instance without a session name
    have hrdata : Delivered ⟨defaultOptions, "command".toList, some m.data, false⟩ m.data
        defaultOptions (.ofFields [("Type".toList, "command".toList), ("Oper".toList, "8".toList),
          ("Value".toList, paramValue (queryAfterValue m.data))]) :=
      ⟨nofun, rfl, rfl, rfl⟩
    have hresult := hdelivered _ _ hrdata
    rw [m.processEventTree_delivered hrdata] at hresult
    have htext := congrArg Prod.snd (Option.some.inj hresult)
    rw [Option.some.injEq, List.take_of_length_le hroom, msgCommand_eq] at htext
    exact (List.cons.inj (List.append_cancel_left (List.append_cancel_right htext))).2
  · intro h sender
    refine ⟨_, m.data, m.ajaxMgrMsg_tokens sender, rfl, fun receiver rdata hrdata => ?_⟩
    rw [m.processEventTree_delivered hrdata, List.take_of_length_le hroom, h]
    rfl

/-- "Rock & roll", for five seconds. -/
def rock : TextMessage where
  source := "console".toList
  seconds := "5".toList
  first := "Rock".toList
  rest := ["&".toList, "roll".toList]
  source_ne := by decide
  seconds_digits := List.all_eq_true.mp (by decide)
  visible := by
    have hall : ["Rock".toList, "&".toList, "roll".toList].flatten.all
        (fun c => decide (0x21 ≤ c.toNat ∧ c.toNat ≤ 0x7E)) = true := by decide
    exact fun word hword c hc => of_decide_eq_true
      (List.all_eq_true.mp hall c (List.mem_flatten.mpr ⟨word, hword, hc⟩))
  fits := by decide

/-- The `&` ends the value. -/
theorem rock_lost : ¬ ∀ m : TextMessage, m.Survives := by
  intro h
  obtain ⟨event, d, hpublished, hdata, hdelivered⟩ := h rock defaultOptions
  rw [ajaxMgrMsg_tokens] at hpublished
  cases hpublished
  cases hdata
  have hresult := hdelivered defaultOptions
    (.ofFields [("Type".toList, "command".toList), ("Oper".toList, "8".toList),
      ("Value".toList, "5:Rock ".toList)]) ⟨nofun, rfl, rfl, by decide +kernel⟩
  have hcommand : (processEventTree libcNull defaultOptions
      (.ofFields [("Type".toList, "command".toList), ("Oper".toList, "8".toList),
        ("Value".toList, "5:Rock ".toList)])).map Prod.snd =
      some (some "msg 5 Rock \n".toList) := by decide +kernel
  rw [hresult] at hcommand
  exact absurd hcommand (by decide +kernel)

end TextMessage

end SerialChrono
