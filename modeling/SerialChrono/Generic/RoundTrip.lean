import SerialChrono.Generic.Lines
import Mathlib.Tactic.IntervalCases
import Mathlib.Data.Bool.AllAny

/-!
# A message from one instance to another

Two instances of this program with the generic driver, one at each end of a line: what the
`module_write` of the first makes of a command, the `module_read` of the second, its serial thread
and the tokenizer of its main thread take apart again.  The four loops meet in the text of the
line (`lineText`): the first lemma of each section says what the loop does on it, and
`exchange_roundTrip` puts them together.
-/

namespace SerialChrono

open CText CBuffer

/-- The arguments as they stand on a line, each after a blank. -/
def argsText (args : Tokens) : CString := args.flatMap fun arg => ' ' :: arg

@[simp] lemma argsText_nil : argsText [] = [] := rfl

@[simp] lemma argsText_cons (arg : CString) (args : Tokens) :
    argsText (arg :: args) = ' ' :: arg ++ argsText args := rfl

/-- The line of a command, without its end. -/
def lineText (cmd : CString) (args : Tokens) : CString := toUpper cmd ++ argsText args

@[simp] lemma length_lineText (cmd : CString) (args : Tokens) :
    (lineText cmd args).length = cmd.length + (argsText args).length := by
  simp [lineText, toUpper]

/-! ## What is written -/

lemma writeUpper_begins {b : Buffer 1024} {written : List Char} (cmd : CString)
    (h : b.Begins written) (hfits : written.length + cmd.length ≤ 1024) :
    ∃ b', writeUpper b cmd written.length = some (b', (written ++ toUpper cmd).length) ∧
      b'.Begins (written ++ toUpper cmd) := by
  induction cmd generalizing b written with
  | nil => exact ⟨b, by simp [writeUpper, toUpper], by simpa [toUpper] using h⟩
  | cons c cmd ih =>
    rw [List.length_cons] at hfits
    obtain ⟨b₁, hstore, hbegins⟩ := b.store_begins h [c.toUpper] (by simp; omega)
    obtain ⟨b₂, hrest, hall⟩ := ih hbegins (by simp; omega)
    have happend : written ++ [c.toUpper] ++ toUpper cmd = written ++ toUpper (c :: cmd) := by
      simp [toUpper]
    rw [happend] at hrest hall
    refine ⟨b₂, ?_, hall⟩
    rw [writeUpper, hstore, ← hrest, List.length_append, List.length_singleton]
    rfl

lemma writeArgs_eq_printAll (b : Buffer 1024) (args : Tokens) (len : ℕ) :
    writeArgs b args len = b.printAll len (args.map fun arg => ' ' :: arg) := by
  induction args generalizing b len with
  | nil => rfl
  | cons arg args ih =>
    rw [writeArgs, List.map_cons, Buffer.printAll]
    exact congrArg _ (funext fun b => ih b _)

lemma writeArgs_begins {b : Buffer 1024} {written : List Char} (args : Tokens)
    (h : b.Begins written) (hfits : written.length + (argsText args).length < 1024) :
    ∃ b', writeArgs b args written.length = some (b', (written ++ argsText args).length) ∧
      b'.Begins (written ++ argsText args) := by
  rw [argsText, List.flatMap_def] at hfits ⊢
  obtain ⟨b', hprint, hbegins, -⟩ := Buffer.printAll_begins h _ hfits
  exact ⟨b', by rw [writeArgs_eq_printAll, hprint], hbegins⟩

/-- The line of a command and its end, whatever the buffer holds. -/
lemma genericWrite_begins (buffer : Buffer 1024) (source cmd : CString) (args : Tokens)
    (hfits : (lineText cmd args).length + 2 < 1024) :
    ∃ buffer' : Buffer 1024,
      genericWrite buffer (source :: cmd :: args) (source :: cmd :: args).length =
          some (buffer', buffer'.text) ∧
        buffer'.Begins (lineText cmd args ++ "\r\n".toList ++ ['\x00']) := by
  rw [length_lineText] at hfits
  obtain ⟨b₁, hupper, hbegins₁⟩ := writeUpper_begins cmd buffer.begins_nil (by simp; omega)
  obtain ⟨b₂, hargs, hbegins₂⟩ := writeArgs_begins args hbegins₁ (by simp [toUpper]; omega)
  obtain ⟨b₃, hprint, hbegins₃⟩ := b₂.print_begins hbegins₂ "\r\n".toList
    (by simp [toUpper]; omega)
  rw [List.nil_append] at hupper hargs hprint hbegins₃
  rw [List.length_nil] at hupper
  refine ⟨b₃, ?_, hbegins₃⟩
  simp only [genericWrite, List.getElem?_cons_succ, List.getElem?_cons_zero, Option.bind_eq_bind,
    Option.bind_some, hupper, List.take_length, List.drop_succ_cons, List.drop_zero, hargs,
    hprint, Option.pure_def]

/-- The bytes of a command. -/
lemma genericWrite_eq (buffer : Buffer 1024) (source cmd : CString) (args : Tokens)
    (hfits : (lineText cmd args).length + 2 < 1024) (hnul : '\x00' ∉ lineText cmd args) :
    ∃ buffer', genericWrite buffer (source :: cmd :: args) (source :: cmd :: args).length =
      some (buffer', lineText cmd args ++ "\r\n".toList) := by
  obtain ⟨buffer', hwrite, hbegins⟩ := genericWrite_begins buffer source cmd args hfits
  have hend : '\x00' ∉ lineText cmd args ++ "\r\n".toList := by
    rw [List.mem_append, not_or]
    exact ⟨hnul, by decide⟩
  rw [Buffer.text_of_begins hbegins hend] at hwrite
  exact ⟨buffer', hwrite⟩

/-! ## What is read -/

/-- A line is read to its end, and no further. -/
lemma genericRead_eq (length : ℕ) {text : CString} (hlength : text.length < 1022)
    (htext : ∀ c ∈ text, c ≠ '\r' ∧ c ≠ '\n') (hnul : '\x00' ∉ text) (port : List PortRead) :
    genericRead length ((text ++ "\r\n".toList).map .byte ++ port) =
      some (⟨(text ++ "\n".toList).length, (text ++ "\n".toList).take (length - 1)⟩, port) := by
  have hport : (text ++ "\r\n".toList).map PortRead.byte ++ port =
      (text ++ ['\r']).map .byte ++ .byte '\n' :: port := by simp
  have hfilter : (text ++ ['\r']).filter (· ≠ '\r') = text := by
    rw [List.filter_append, List.filter_eq_self.mpr fun c hc => by simp [(htext c hc).1]]
    simp
  have hlf : '\n' ∉ text ++ ['\r'] := by
    rw [List.mem_append, not_or]
    exact ⟨fun hmem => (htext _ hmem).2 rfl, by decide⟩
  have hline := nextPiece_line [] false hlf (by rw [hfilter]; simp; omega) port
  have hend : cstr (text ++ "\n".toList) = text ++ "\n".toList := by
    refine takeWhile_ne_self ?_
    rw [List.mem_append, not_or]
    exact ⟨hnul, by decide⟩
  rw [hfilter, List.nil_append] at hline
  rw [genericRead_eq_nextPiece, hport, hline, Option.map_some]
  exact congrArg (fun line => some (DriverRead.mk line.length (line.take (length - 1)), port)) hend

/-! ## What main takes apart -/

lemma splitOn_argsText {word : CString} {args : Tokens} (hword : ' ' ∉ word)
    (hargs : ∀ arg ∈ args, ' ' ∉ arg) :
    (word ++ argsText args).splitOn ' ' = word :: args := by
  rw [argsText, ← intercalate_eq_append_flatMap]
  exact List.splitOn_intercalate ' ' (List.forall_mem_cons.mpr ⟨hword, hargs⟩) (by simp)

/-- What can be sent on a line: a word in small letters, and arguments without blanks, ends of
lines or terminators, as many and as long as main can receive. -/
structure Transmittable (cmd : CString) (args : Tokens) : Prop where
  nonempty : cmd ≠ []
  lower : ∀ c ∈ cmd, c.isLower = true
  args_text : ∀ arg ∈ args, ∀ c ∈ arg, c ≠ ' ' ∧ c ≠ '\r' ∧ c ≠ '\n' ∧ c ≠ '\x00'
  count : args.length ≤ 30
  short : (lineText cmd args).length < 480

lemma mem_alphabet_of_isLower {c : Char} (h : c.isLower = true) :
    c ∈ "abcdefghijklmnopqrstuvwxyz".toList := by
  have hbounds : (decide ('a'.val ≤ c.val) && decide (c.val ≤ 'z'.val)) = true := h
  rw [Bool.and_eq_true, decide_eq_true_eq, decide_eq_true_eq] at hbounds
  have hlo : 97 ≤ c.toNat := by simpa [UInt32.le_iff_toNat_le] using hbounds.1
  have hhi : c.toNat ≤ 122 := by simpa [UInt32.le_iff_toNat_le] using hbounds.2
  have hc : c = Char.ofNat c.toNat := (Char.ofNat_toNat c).symm
  rw [hc]
  generalize c.toNat = n at hlo hhi
  interval_cases n <;> decide

/-- Small letters survive the change to capitals and back, and their capitals are letters. -/
lemma letter_spec : ∀ c ∈ "abcdefghijklmnopqrstuvwxyz".toList, c.toUpper.toLower = c ∧
    c.toUpper ≠ ' ' ∧ c.toUpper ≠ '\r' ∧ c.toUpper ≠ '\n' ∧ c.toUpper ≠ '\x00' :=
  List.all_iff_forall_prop.mp (by decide)

namespace Transmittable

variable {cmd : CString} {args : Tokens} (h : Transmittable cmd args)
include h

lemma toLower_toUpper : toLower (toUpper cmd) = cmd := by
  rw [toLower, toUpper, List.map_map]
  conv_rhs => rw [← List.map_id cmd]
  exact List.map_congr_left fun c hc => (letter_spec c (mem_alphabet_of_isLower (h.lower c hc))).1

lemma word_text : ∀ c ∈ toUpper cmd, c ≠ ' ' ∧ c ≠ '\r' ∧ c ≠ '\n' ∧ c ≠ '\x00' := by
  intro c hc
  obtain ⟨d, hd, rfl⟩ := List.mem_map.mp hc
  exact (letter_spec d (mem_alphabet_of_isLower (h.lower d hd))).2

lemma line_text : ∀ c ∈ lineText cmd args, c ≠ '\r' ∧ c ≠ '\n' ∧ c ≠ '\x00' := by
  intro c hc
  rcases List.mem_append.mp hc with hc | hc
  · exact (h.word_text c hc).2
  · obtain ⟨arg, harg, hc⟩ := List.mem_flatMap.mp hc
    rcases List.mem_cons.mp hc with rfl | hc
    · decide
    · exact (h.args_text arg harg c hc).2

lemma line_ne_nil : lineText cmd args ≠ [] := by
  intro hnil
  have hcmd : toUpper cmd = [] := (List.append_eq_nil_iff.mp hnil).1
  exact h.nonempty (List.map_eq_nil_iff.mp hcmd)

lemma receive_line :
    receive (requestPrefix ++ lineText cmd args) = some (requestPrefix ++ lineText cmd args) := by
  have hshort := h.short
  have hhead : requestPrefix.length = 12 := by decide
  rw [receive, if_pos (by rw [List.length_append]; omega)]
  refine congrArg some (takeWhile_ne_self fun hnul => ?_)
  rcases List.mem_append.mp hnul with hnul | hnul
  · exact absurd hnul (by decide)
  · exact (h.line_text _ hnul).2.2 rfl

/-- Main finds the tokens of the message. -/
lemma mainTokens_line :
    mainTokens (requestPrefix ++ lineText cmd args) = some (scSerial :: cmd :: args) := by
  have hsplit : (requestPrefix ++ lineText cmd args).splitOn ' ' =
      scSerial :: toUpper cmd :: args := by
    have hargs : ∀ arg ∈ toUpper cmd :: args, ' ' ∉ arg := by
      intro arg harg hblank
      rcases List.mem_cons.mp harg with rfl | harg
      · exact (h.word_text _ hblank).1 rfl
      · exact (h.args_text arg harg _ hblank).1 rfl
    have hline : requestPrefix ++ lineText cmd args =
        scSerial ++ argsText (toUpper cmd :: args) := by
      simp [requestPrefix, lineText]
    rw [hline, splitOn_argsText (by decide) hargs]
  have hcount : (scSerial :: toUpper cmd :: args).length ≤ 32 := by
    have := h.count
    simp only [List.length_cons]
    omega
  simp only [mainTokens, explode_eq, hsplit, if_pos hcount, Option.bind_eq_bind, Option.bind_some,
    List.getElem?_cons_succ, List.getElem?_cons_zero, h.toLower_toUpper, List.set_cons_succ,
    List.set_cons_zero, Option.pure_def]

end Transmittable

/-! ## From end to end -/

/-- One line at the receiving end: `module_read`, the turn of the thread that sends it on, and the
tokens main finds; with the request buffer and the port afterwards. -/
def readMessage (request : Buffer 1024) (port : List PortRead) :
    Option (Buffer 1024 × Tokens × List PortRead) := do
  let (read, port) ← genericRead (1024 - requestPrefix.length) port
  let (request, datagram) ← serialTurn request read
  let buffer ← receive (← datagram)
  let tokens ← mainTokens buffer
  return (request, tokens, port)

/-- The two ends of a line: the buffer of `module_write` at one, with anything in it, and the one
of the serial thread at the other, where the source of its datagrams stands. -/
structure LineEnds where
  writer : Buffer 1024
  request : Buffer 1024
  begins : request.Begins requestPrefix

/-- Both ends before the first message. -/
def LineEnds.start : LineEnds where
  writer := Buffer.zero 1024
  request := ⟨requestPrefix ++ List.replicate 1012 '\x00', by
    rw [List.length_append, List.length_replicate]
    rfl⟩
  begins := List.prefix_append _ _

/-- A message sent at one end and received at the other, with the two buffers afterwards. -/
def exchange (ends : LineEnds) (tokens : Tokens) (port : List PortRead) :
    Option (Buffer 1024 × Buffer 1024 × Tokens × List PortRead) := do
  let (writer, bytes) ← genericWrite ends.writer tokens tokens.length
  let (request, tokens, port) ← readMessage ends.request (bytes.map .byte ++ port)
  return (writer, request, tokens, port)

lemma genericWrite_transmittable {cmd : CString} {args : Tokens} (h : Transmittable cmd args)
    (writer : Buffer 1024) (source : CString) :
    ∃ writer', genericWrite writer (source :: cmd :: args) (source :: cmd :: args).length =
      some (writer', lineText cmd args ++ "\r\n".toList) := by
  have hshort := h.short
  exact genericWrite_eq writer source cmd args (by omega) fun hnul =>
    (h.line_text _ hnul).2.2 rfl

/-- The bytes of a message are read as its tokens, and nothing that follows them is. -/
lemma readMessage_transmittable {cmd : CString} {args : Tokens} (h : Transmittable cmd args)
    {request : Buffer 1024} (hrequest : request.Begins requestPrefix) (port : List PortRead) :
    ∃ request', readMessage request ((lineText cmd args ++ "\r\n".toList).map .byte ++ port) =
        some (request', scSerial :: cmd :: args, port) ∧ request'.Begins requestPrefix := by
  have hshort := h.short
  have hnul : '\x00' ∉ lineText cmd args := fun hmem => (h.line_text _ hmem).2.2 rfl
  have hlf : '\n' ∉ lineText cmd args := fun hmem => (h.line_text _ hmem).2.1 rfl
  have hends : ∀ c ∈ lineText cmd args, c ≠ '\r' ∧ c ≠ '\n' :=
    fun c hc => ⟨(h.line_text c hc).1, (h.line_text c hc).2.1⟩
  have hread := genericRead_eq (1024 - requestPrefix.length) (by omega) hends hnul port
  have hroom : (lineText cmd args ++ "\n".toList).take (1024 - requestPrefix.length - 1) =
      lineText cmd args ++ "\n".toList := by
    refine List.take_of_length_le ?_
    have hhead : requestPrefix.length = 12 := by decide
    rw [List.length_append, hhead, show ("\n".toList).length = 1 from rfl]
    omega
  obtain ⟨request', hturn, hbegins⟩ := serialTurn_eq hrequest (by omega) hnul hlf
  refine ⟨request', ?_, hbegins⟩
  rw [if_neg h.line_ne_nil] at hturn
  rw [hroom] at hread
  simp only [readMessage, hread, Option.bind_eq_bind, Option.bind_some, hturn, h.receive_line,
    h.mainTokens_line, Option.pure_def]

/-- **The round trip of the generic protocol.** -/
theorem exchange_roundTrip {cmd : CString} {args : Tokens} (h : Transmittable cmd args)
    (source : CString) (ends : LineEnds) (port : List PortRead) :
    ∃ ends' : LineEnds, exchange ends (source :: cmd :: args) port =
      some (ends'.writer, ends'.request, scSerial :: cmd :: args, port) := by
  obtain ⟨writer', hwrite⟩ := genericWrite_transmittable h ends.writer source
  obtain ⟨request', hread, hbegins⟩ := readMessage_transmittable h ends.begins port
  refine ⟨⟨writer', request', hbegins⟩, ?_⟩
  simp only [exchange, hwrite, Option.bind_eq_bind, Option.bind_some, hread, Option.pure_def]

/-- A message with an empty word in it. -/
theorem exchange_empty_word :
    ∃ ends' : LineEnds,
      exchange .start ["web_server".toList, "msg".toList, "5".toList, [], "hola".toList] [] =
        some (ends'.writer, ends'.request,
          [scSerial, "msg".toList, "5".toList, [], "hola".toList], []) :=
  exchange_roundTrip ⟨by decide, List.all_eq_true.mp (by decide), by simp, by decide, by decide⟩
    _ _ []

/-! ## Several messages -/

/-- The tokens of a message. -/
structure Message where
  source : CString
  cmd : CString
  args : Tokens

/-- The bytes of several messages, written one after the other. -/
def writeMessages (writer : Buffer 1024) : List Message → Option (Buffer 1024 × List Char)
  | [] => some (writer, [])
  | m :: ms => do
    let tokens := m.source :: m.cmd :: m.args
    let (writer, bytes) ← genericWrite writer tokens tokens.length
    let (writer, more) ← writeMessages writer ms
    return (writer, bytes ++ more)

/-- As many lines read from the port. -/
def readMessages (request : Buffer 1024) :
    (count : ℕ) → List PortRead → Option (List Tokens × List PortRead)
  | 0, port => some ([], port)
  | count + 1, port => do
    let (request, tokens, port) ← readMessage request port
    let (more, port) ← readMessages request count port
    return (tokens :: more, port)

/-- Messages that wait on the port arrive complete and in order. -/
theorem readMessages_writeMessages {ms : List Message}
    (hms : ∀ m ∈ ms, Transmittable m.cmd m.args) (writer : Buffer 1024) {request : Buffer 1024}
    (hrequest : request.Begins requestPrefix) (port : List PortRead) :
    ∃ writer' bytes, writeMessages writer ms = some (writer', bytes) ∧
      readMessages request ms.length (bytes.map .byte ++ port) =
        some (ms.map fun m => scSerial :: m.cmd :: m.args, port) := by
  induction ms generalizing writer request with
  | nil => exact ⟨writer, [], rfl, rfl⟩
  | cons m ms ih =>
    have hm := hms m List.mem_cons_self
    obtain ⟨writer₁, hwrite⟩ := genericWrite_transmittable hm writer m.source
    obtain ⟨writer₂, more, hmore, -⟩ := ih (fun m' hm' => hms m' (List.mem_cons_of_mem m hm'))
      writer₁ hrequest
    obtain ⟨request₁, hread, hbegins⟩ := readMessage_transmittable hm hrequest
      (more.map .byte ++ port)
    obtain ⟨writer₃, more', hmore', hrest⟩ :=
      ih (fun m' hm' => hms m' (List.mem_cons_of_mem m hm')) writer₁ hbegins
    obtain ⟨rfl, rfl⟩ : writer₂ = writer₃ ∧ more = more' := by simpa [hmore] using hmore'
    refine ⟨writer₂, lineText m.cmd m.args ++ "\r\n".toList ++ more, ?_, ?_⟩
    · simp only [writeMessages, hwrite, hmore, Option.bind_eq_bind, Option.bind_some,
        Option.pure_def]
    · rw [List.map_append, List.append_assoc]
      simp only [readMessages, List.length_cons, hread, hrest, Option.bind_eq_bind,
        Option.bind_some, Option.pure_def, List.map_cons]

end SerialChrono
