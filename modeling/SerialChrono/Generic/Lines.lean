import SerialChrono.Generic.Model
import SerialChrono.Library.PartialRun
import Mathlib.Data.List.DropRight

/-!
# The lines of the generic chronometer (`modules/generic.c`, `serial_mgr.c`)

The loop of `module_read` leaves a carriage return where the next byte goes, ends a line by
pretending that nothing has come, and ends one itself after 1022 characters.  `nextPiece` says
what a call takes from the port, and `genericRead_eq_nextPiece` that it is so.

`module_read` returns the length of the line, also where the buffer of the serial thread has taken
less of it.  `readFits_iff` tells the lines for which the thread writes past its buffer then;
shorter ones reach main, each of them once and without its carriage returns
(`serialLoop_sends`).
-/

namespace SerialChrono

open CText CBuffer PartialRun

/-! ## What a call takes from the port -/

/-- What `module_read` comes back with: a line with its end, or the code of an error. -/
inductive Piece
  | line (text : CString)
  | failed (code : ℤ) (negative : code < 0)

/-- The next piece on the port, after the characters `acc`; `cr` tells that the last byte was a
carriage return.  A line ends after 1022 characters, and the byte that comes then is lost, or the
error overlooked, unless a carriage return was in its place. -/
def nextPiece (acc : List Char) (cr : Bool) : List PortRead → Option (Piece × List PortRead)
  | [] => none
  | .byte c :: port =>
    if c = '\r' then nextPiece acc true port
    else if c = '\n' ∨ acc.length = 1022 then some (.line (acc ++ ['\n']), port)
    else nextPiece (acc ++ [c]) false port
  | .error code negative :: port =>
    if acc.length = 1022 ∧ cr = false then some (.line (acc ++ ['\n']), port)
    else some (.failed code negative, port)

/-- What `module_read` returns for the piece. -/
def Piece.read (length : ℕ) : Piece → DriverRead
  | .line text => ⟨(cstr text).length, (cstr text).take (length - 1)⟩
  | .failed code _ => ⟨code, []⟩

/-! ## The loop -/

/-- The bytes read so far; the one at `pt` may be a carriage return. -/
structure Reading.Holds (s : Reading) (read : List Char) (cr : Bool) : Prop where
  begins : s.inbuff.Begins read
  pt : s.pt = read.length
  clear : s.inbuff.ClearFrom (read.length + 1)
  mark : s.inbuff.get s.pt = some (if cr then '\r' else '\x00')
  room : read.length ≤ 1022

lemma Reading.holds_start :
    Reading.Holds { inbuff := Buffer.zero 1024, pt := 0, ret := 1 } [] false :=
  ⟨Buffer.begins_nil _, rfl, Buffer.clearFrom_zero _ _,
    Buffer.get_of_clearFrom (Buffer.clearFrom_zero 1024 0) (by decide), by decide⟩

/-- A byte is stored after the ones before. -/
lemma Reading.Holds.store {s : Reading} {read : List Char} {cr : Bool} (h : s.Holds read cr)
    (c : Char) :
    ∃ b, s.inbuff.store s.pt [c] = some b ∧ b.Begins (read ++ [c]) ∧
      b.ClearFrom (read.length + 1) ∧ b.get s.pt = some c := by
  have hroom := h.room
  obtain ⟨b, hstore, hbegins⟩ := s.inbuff.store_begins h.begins [c] (by simp; omega)
  have hclear : b.ClearFrom (read.length + 1) := h.clear.store hstore
  rw [← h.pt] at hstore
  refine ⟨b, hstore, hbegins, hclear, ?_⟩
  rw [h.pt]
  exact Buffer.get_of_begins hbegins

/-- A byte of the text. -/
lemma readByte_text {s : Reading} {read : List Char} {cr : Bool} {c : Char} (h : s.Holds read cr)
    (hroom : read.length < 1022) (hcr : c ≠ '\r') (hlf : c ≠ '\n') :
    ∃ s', readByte s (.byte c) = some s' ∧ s'.Holds (read ++ [c]) false ∧ s'.ret = 1 := by
  obtain ⟨b, hstore, hbegins, hclear, hget⟩ := h.store c
  have hpt : s.pt ≠ 1022 := by
    rw [h.pt]
    omega
  have hlength : (read ++ [c]).length = read.length + 1 := by simp
  refine ⟨{ inbuff := b, pt := s.pt + 1, ret := 1 }, ?_, ⟨hbegins, ?_, ?_, ?_, ?_⟩, rfl⟩
  · simp [readByte, hstore, hget, hcr, hlf, hpt]
  · simp [h.pt]
  · rw [hlength]
    exact hclear.mono (Nat.le_succ _)
  · rw [h.pt]
    exact Buffer.get_of_clearFrom hclear (show read.length + 1 < 1024 by omega)
  · omega

/-- A carriage return stays where the next byte goes. -/
lemma readByte_cr {s : Reading} {read : List Char} {cr : Bool} (h : s.Holds read cr) :
    ∃ s', readByte s (.byte '\r') = some s' ∧ s'.Holds read true ∧ s'.ret = 1 := by
  obtain ⟨b, hstore, hbegins, hclear, hget⟩ := h.store '\r'
  refine ⟨{ s with inbuff := b, ret := 1 }, ?_, ⟨hbegins.left, h.pt, hclear, hget, h.room⟩, rfl⟩
  simp [readByte, hstore, hget]

/-- The line is in the buffer, and the loop ends. -/
structure Reading.Ended (s : Reading) (read : List Char) : Prop where
  text : s.inbuff.text = cstr (read ++ ['\n'])
  ret : s.ret = 0

lemma Reading.ended_of_begins {s : Reading} {read : List Char} (hroom : read.length ≤ 1022)
    (hbegins : s.inbuff.Begins (read ++ ['\n'])) (hclear : s.inbuff.ClearFrom (read.length + 1))
    (hret : s.ret = 0) : s.Ended read := by
  have hlength : (read ++ ['\n']).length = read.length + 1 := by simp
  refine ⟨Buffer.text_eq_cstr (hbegins.terminated ?_ (by omega)), hret⟩
  rwa [hlength]

/-- The end of a line, in its place or after 1022 characters. -/
lemma readByte_end {s : Reading} {read : List Char} {cr : Bool} {c : Char} (h : s.Holds read cr)
    (hcr : c ≠ '\r') (hend : c = '\n' ∨ read.length = 1022) :
    ∃ s', readByte s (.byte c) = some s' ∧ s'.Ended read := by
  obtain ⟨b, hstore, hbegins, hclear, hget⟩ := h.store c
  by_cases hpt : s.pt = 1022
  · have hfull : read.length = 1022 := h.pt ▸ hpt
    obtain ⟨b', hlf, hbegins'⟩ := b.store_begins hbegins.left ['\n'] (by simp; omega)
    have hclear' : b'.ClearFrom (read.length + 1) := hclear.store hlf
    rw [hfull, ← hpt] at hlf
    refine ⟨{ inbuff := b', pt := s.pt + 1, ret := 0 }, ?_,
      Reading.ended_of_begins h.room hbegins' hclear' rfl⟩
    rw [hpt] at hstore hget hlf
    simp [readByte, hstore, hget, hcr, hpt, hlf]
  · have hlf : c = '\n' := hend.resolve_right fun hfull => hpt (h.pt.trans hfull)
    subst hlf
    refine ⟨{ inbuff := b, pt := s.pt + 1, ret := 0 }, ?_,
      Reading.ended_of_begins h.room hbegins hclear rfl⟩
    simp [readByte, hstore, hget, hpt]

/-- An error. -/
lemma readByte_error {s : Reading} {read : List Char} {cr : Bool} (h : s.Holds read cr)
    {code : ℤ} (hneg : code < 0) :
    ∃ s', readByte s (.error code hneg) = some s' ∧
      if read.length = 1022 ∧ cr = false then s'.Ended read else s'.ret = code := by
  cases hcr : cr with
  | true =>
    have hmark : s.inbuff.get s.pt = some '\r' := by simpa [hcr] using h.mark
    exact ⟨{ s with ret := code }, by simp [readByte, hmark], by simp⟩
  | false =>
    have hmark : s.inbuff.get s.pt = some '\x00' := by simpa [hcr] using h.mark
    by_cases hpt : s.pt = 1022
    · have hfull : read.length = 1022 := h.pt ▸ hpt
      obtain ⟨b, hstore, hbegins, hclear, -⟩ := h.store '\n'
      refine ⟨{ inbuff := b, pt := s.pt + 1, ret := 0 }, ?_, ?_⟩
      · rw [hpt] at hstore hmark
        simp [readByte, hmark, hpt, hstore]
      · rw [if_pos ⟨hfull, rfl⟩]
        exact Reading.ended_of_begins h.room hbegins hclear rfl
    · refine ⟨{ s with pt := s.pt + 1, ret := code }, by simp [readByte, hmark, hpt], ?_⟩
      rw [if_neg fun hfull => hpt (h.pt.trans hfull.1)]

/-- What the call returns after the loop. -/
def Reading.result (length : ℕ) (s : Reading) : DriverRead :=
  if s.ret < 0 then ⟨s.ret, []⟩ else ⟨s.inbuff.text.length, s.inbuff.text.take (length - 1)⟩

lemma Reading.Ended.result {s : Reading} {read : List Char} (h : s.Ended read) (length : ℕ) :
    s.result length = (Piece.line (read ++ ['\n'])).read length := by
  rw [Reading.result, h.ret, if_neg (lt_irrefl 0), h.text, Piece.read]

lemma genericRead_eq_readLoop (length : ℕ) (port : List PortRead) :
    genericRead length port = (readLoop port { inbuff := Buffer.zero 1024, pt := 0, ret := 1 }).map
      fun r => (r.1.result length, r.2) := by
  unfold genericRead Reading.result
  rw [Option.map_eq_bind]
  refine congrArg _ (funext fun r => ?_)
  dsimp only [Function.comp_apply, Option.pure_def]
  split_ifs <;> rfl

/-- The loop takes the next piece. -/
lemma readLoop_eq_nextPiece (length : ℕ) (port : List PortRead) {s : Reading} {read : List Char}
    {cr : Bool} (h : s.Holds read cr) :
    (readLoop port s).map (fun r => (r.1.result length, r.2)) =
      (nextPiece read cr port).map fun p => (p.1.read length, p.2) := by
  induction port generalizing s read cr with
  | nil => rfl
  | cons r port ih =>
    cases r with
    | byte c =>
      rw [nextPiece, readLoop]
      split_ifs with hcr hend
      · subst hcr
        obtain ⟨s', hbyte, hholds, hret⟩ := readByte_cr h
        rw [hbyte, Option.bind_some, hret, if_pos one_pos, ih hholds]
      · obtain ⟨s', hbyte, hended⟩ := readByte_end h hcr hend
        rw [hbyte, Option.bind_some, hended.ret, if_neg (lt_irrefl 0), Option.map_some,
          Option.map_some, hended.result]
      · rw [not_or] at hend
        have hroom := lt_of_le_of_ne h.room hend.2
        obtain ⟨s', hbyte, hholds, hret⟩ := readByte_text h hroom hcr hend.1
        rw [hbyte, Option.bind_some, hret, if_pos one_pos, ih hholds]
    | error code hneg =>
      rw [nextPiece, readLoop]
      obtain ⟨s', hbyte, hres⟩ := readByte_error h hneg
      rw [hbyte, Option.bind_some]
      by_cases hfull : read.length = 1022 ∧ cr = false
      · rw [if_pos hfull] at hres
        rw [if_pos hfull, hres.ret, if_neg (lt_irrefl 0), Option.map_some, Option.map_some,
          hres.result]
      · rw [if_neg hfull] at hres
        rw [if_neg hfull, hres, if_neg hneg.le.not_gt, Option.map_some, Option.map_some,
          Reading.result, hres, if_pos hneg, Piece.read]

/-- **A call of `module_read`.** -/
theorem genericRead_eq_nextPiece (length : ℕ) (port : List PortRead) :
    genericRead length port = (nextPiece [] false port).map fun p => (p.1.read length, p.2) := by
  rw [genericRead_eq_readLoop, readLoop_eq_nextPiece length port Reading.holds_start]

/-! ## The bytes of a line -/

/-- A line is taken to its end, and no further, wherever its carriage returns are. -/
lemma nextPiece_line (acc : List Char) (cr : Bool) {bytes : List Char} (hlf : '\n' ∉ bytes)
    (hroom : acc.length + (bytes.filter (· ≠ '\r')).length ≤ 1022) (port : List PortRead) :
    nextPiece acc cr (bytes.map .byte ++ .byte '\n' :: port) =
      some (.line (acc ++ bytes.filter (· ≠ '\r') ++ ['\n']), port) := by
  induction bytes generalizing acc cr with
  | nil => simp [nextPiece]
  | cons c bytes ih =>
    rw [List.mem_cons, not_or] at hlf
    obtain ⟨hc, hlf⟩ := hlf
    rw [List.map_cons, List.cons_append, nextPiece]
    by_cases hcr : c = '\r'
    · rw [List.filter_cons_of_neg (by simp [hcr])] at hroom ⊢
      rw [if_pos hcr, ih _ _ hlf hroom]
    · rw [List.filter_cons_of_pos (by simp [hcr]), List.length_cons] at hroom
      have hend : ¬ (c = '\n' ∨ acc.length = 1022) := by
        rw [not_or]
        exact ⟨Ne.symm hc, by omega⟩
      rw [List.filter_cons_of_pos (by simp [hcr]), if_neg hcr, if_neg hend,
        ih _ _ hlf (by rw [List.length_append, List.length_singleton]; omega)]
      simp

/-- What has no end yet is waited for. -/
lemma nextPiece_waits (acc : List Char) (cr : Bool) {bytes : List Char} (hlf : '\n' ∉ bytes)
    (hroom : acc.length + (bytes.filter (· ≠ '\r')).length ≤ 1022) :
    nextPiece acc cr (bytes.map .byte) = none := by
  induction bytes generalizing acc cr with
  | nil => rfl
  | cons c bytes ih =>
    rw [List.mem_cons, not_or] at hlf
    obtain ⟨hc, hlf⟩ := hlf
    rw [List.map_cons, nextPiece]
    by_cases hcr : c = '\r'
    · rw [List.filter_cons_of_neg (by simp [hcr])] at hroom
      rw [if_pos hcr, ih _ _ hlf hroom]
    · rw [List.filter_cons_of_pos (by simp [hcr]), List.length_cons] at hroom
      have hend : ¬ (c = '\n' ∨ acc.length = 1022) := by
        rw [not_or]
        exact ⟨Ne.symm hc, by omega⟩
      rw [if_neg hcr, if_neg hend,
        ih _ _ hlf (by rw [List.length_append, List.length_singleton]; omega)]

/-! ## The thread -/

/-- What comes of a datagram: main does not get it, or does not answer, or answers; then the
thread looks whether it is to end. -/
inductive Reply
  | sendFailed
  | recvFailed
  | answered (gone : Bool)

/-- The loop goes on. -/
def Reply.goesOn : Reply → Bool
  | .sendFailed => false
  | .recvFailed => true
  | .answered gone => !gone

/-- The loop of `serial_manager_thread`: its buffer, the port, and what main has got. -/
structure SerialLoop where
  request : Buffer 1024
  port : List PortRead
  sent : List CString
  running : Bool

/-- The loop as it begins. -/
def SerialLoop.start (request : Buffer 1024) (port : List PortRead) : SerialLoop :=
  ⟨request, port, [], true⟩

/-- The call of `module_read` that the thread makes, with what is left on the port. -/
def SerialLoop.reading (s : SerialLoop) : Option (DriverRead × List PortRead) :=
  if s.running then genericRead (1024 - requestPrefix.length) s.port else none

/-- A turn of the loop. -/
def serialLoopStep (s : SerialLoop) (reply : Reply) : Option SerialLoop := do
  let (read, port) ← s.reading
  let (request, datagram) ← serialTurn s.request read
  match datagram, reply with
  | none, _ => return { s with request, port }
  | some _, .sendFailed => return { s with request, port, running := false }
  | some line, .recvFailed => return { s with request, port, sent := s.sent ++ [line] }
  | some line, .answered gone =>
    return { request, port, sent := s.sent ++ [line], running := !gone }

/-! ## The buffer of the thread -/

/-- The terminator that the thread writes stands in its buffer, and not beyond the text there. -/
def ReadFits (s : SerialLoop) (_ : Reply) : Prop :=
  ∀ read port, s.reading = some (read, port) → 0 ≤ read.res →
    requestPrefix.length + read.res < 1024 ∧ read.res ≤ read.text.length

/-- The next line on the port has at most 1011 characters with its end, or as many before a
terminator. -/
def LineFits (s : SerialLoop) (_ : Reply) : Prop :=
  s.running = true → ∀ text port, nextPiece [] false s.port = some (.line text, port) →
    (cstr text).length ≤ 1011

lemma readFits_step_iff (s : SerialLoop) (reply : Reply) : ReadFits s reply ↔ LineFits s reply := by
  have hhead : requestPrefix.length = 12 := by decide
  unfold ReadFits LineFits SerialLoop.reading
  rw [genericRead_eq_nextPiece]
  cases hrunning : s.running with
  | false => simp
  | true =>
    rcases hpiece : nextPiece [] false s.port with - | ⟨⟨text⟩ | ⟨code, hneg⟩, port⟩
    · simp
    · have hread : ((Piece.line text).read (1024 - requestPrefix.length)).text.length =
          min 1011 (cstr text).length := by rw [Piece.read, hhead, List.length_take]
      constructor
      · intro h _ text' port' hline
        cases hline
        have hres : ((12 : ℕ) : ℤ) + (cstr text).length < 1024 :=
          (h _ _ rfl (Int.natCast_nonneg _)).1
        omega
      · intro h read port' hcall _
        cases hcall
        have hlength := h rfl text port rfl
        rw [hread, hhead]
        change ((12 : ℕ) : ℤ) + (cstr text).length < 1024 ∧
          ((cstr text).length : ℤ) ≤ (min 1011 (cstr text).length : ℕ)
        omega
    · simp only [if_true, Option.map_some, Option.some.injEq, Prod.mk.injEq, Piece.read,
        reduceCtorEq, false_and, false_imp_iff, implies_true, iff_true]
      rintro read port' ⟨rfl, -⟩ hres
      exact absurd hres hneg.not_ge

/-- **The buffer of the serial thread.** For everything that can come from the port, errors
included, and every way the datagrams are answered: the thread stays within its buffer, and within
the text there, if and only if no line it takes from the port has more than 1010 characters before
its end. -/
theorem readFits_iff (request : Buffer 1024) (port : List PortRead) (replies : List Reply) :
    AtEach serialLoopStep ReadFits (.start request port) replies ↔
      AtEach serialLoopStep LineFits (.start request port) replies :=
  atEach_congr readFits_step_iff

/-- A line of 1011 characters. -/
theorem long_line_does_not_fit :
    ¬ ∀ (request : Buffer 1024) (port : List PortRead) (replies : List Reply),
      AtEach serialLoopStep ReadFits (.start request port) replies := by
  intro h
  obtain ⟨bytes, hlength, hbytes⟩ : ∃ bytes : List Char, bytes.length = 1011 ∧
      ∀ c ∈ bytes, c = 'a' :=
    ⟨List.replicate 1011 'a', List.length_replicate, fun _ hc => List.eq_of_mem_replicate hc⟩
  have hlf : '\n' ∉ bytes := fun hmem => absurd (hbytes _ hmem) (by decide)
  have hnul : '\x00' ∉ bytes ++ ['\n'] := by
    rw [List.mem_append, not_or]
    exact ⟨fun hmem => absurd (hbytes _ hmem) (by decide), by decide⟩
  have hfilter : bytes.filter (· ≠ '\r') = bytes :=
    List.filter_eq_self.mpr fun c hc => by simp [hbytes c hc]
  have hline := nextPiece_line [] false hlf
    (by rw [hfilter, hlength, List.length_nil]; omega) []
  rw [hfilter, List.nil_append] at hline
  have hstep := (h (Buffer.zero 1024) (bytes.map PortRead.byte ++ [PortRead.byte '\n'])
    [.recvFailed]).1
  have hfits := (readFits_step_iff _ _).mp hstep rfl _ _ hline
  rw [cstr, takeWhile_ne_self hnul, List.length_append, hlength] at hfits
  exact absurd hfits (by decide)

/-! ## What the thread sends -/

/-- The thread sends the line after its source, unless it is empty, and keeps the source in the
buffer. -/
lemma serialTurn_eq {request : Buffer 1024} (hrequest : request.Begins requestPrefix)
    {text : CString} (hlength : text.length ≤ 1010) (hnul : '\x00' ∉ text) (hlf : '\n' ∉ text) :
    ∃ request', serialTurn request ⟨(text ++ "\n".toList).length, text ++ "\n".toList⟩ =
        some (request', if text = [] then none else some (requestPrefix ++ text)) ∧
      request'.Begins requestPrefix := by
  have hhead : requestPrefix.length = 12 := by decide
  have hwhole : (requestPrefix ++ (text ++ "\n".toList)).length = 12 + (text.length + 1) := by
    simp [hhead]
  obtain ⟨b₁, hprint, hbegins₁⟩ := request.print_begins hrequest (text ++ "\n".toList)
    (by simp [hhead]; omega)
  obtain ⟨b₂, hend, hbegins₂⟩ := b₁.store_begins hbegins₁.left ['\x00']
    (by rw [hwhole]; simp; omega)
  have hnul₂ : '\x00' ∉ requestPrefix ++ (text ++ "\n".toList) := by
    simp only [List.mem_append, not_or]
    exact ⟨by decide, hnul, by decide⟩
  have hline : (requestPrefix ++ (text ++ "\n".toList)).takeWhile (· ≠ '\n') =
      requestPrefix ++ text := by
    rw [takeWhile_ne_append (by decide), takeWhile_ne_append hlf]
    exact congrArg _ (List.append_nil text)
  have htext₂ : b₂.text = requestPrefix ++ (text ++ "\n".toList) :=
    Buffer.text_of_begins hbegins₂ hnul₂
  have hbegins₂' : b₂.Begins (requestPrefix ++ text) := by
    have hassoc : requestPrefix ++ (text ++ "\n".toList) ++ ['\x00'] =
        requestPrefix ++ text ++ ("\n".toList ++ ['\x00']) := by
      simp only [List.append_assoc]
    rw [hassoc] at hbegins₂
    exact hbegins₂.left
  obtain ⟨b₃, hstrip, hbegins₃⟩ := b₂.store_begins hbegins₂' ['\x00']
    (by simp [hhead]; omega)
  refine ⟨b₃, ?_, hbegins₃.left.left⟩
  have hres : requestPrefix.length + ((text ++ "\n".toList).length : ℤ).toNat =
      (requestPrefix ++ (text ++ "\n".toList)).length := by
    rw [Int.toNat_natCast]
    exact List.length_append.symm
  have hnonneg : ¬ ((text ++ "\n".toList).length : ℤ) < 0 := by omega
  simp only [serialTurn, hnonneg, if_false, Option.bind_eq_bind, hprint, Option.bind_some, hres,
    hend, htext₂, hline, hstrip, List.drop_left, Option.pure_def]
  split_ifs <;> rfl

/-! ## The lines of a stream -/

/-- The lines of a stream that have come to their end, without their carriage returns. -/
def streamLines (stream : List Char) : List CString :=
  (stream.splitOn '\n').dropLast.map fun line => line.filter (· ≠ '\r')

/-- What has come after the last of them, without its carriage returns. -/
def unfinished (stream : List Char) : CString :=
  (stream.rtakeWhile (· ≠ '\n')).filter (· ≠ '\r')

lemma streamLines_append {bytes : List Char} (hlf : '\n' ∉ bytes) (stream : List Char) :
    streamLines (bytes ++ '\n' :: stream) = bytes.filter (· ≠ '\r') :: streamLines stream := by
  unfold streamLines
  rw [List.splitOn_append_cons_self_of_not_mem hlf,
    List.dropLast_cons_of_ne_nil (List.splitOn_ne_nil '\n' stream), List.map_cons]

lemma unfinished_append (bytes stream : List Char) :
    unfinished (bytes ++ '\n' :: stream) = unfinished stream := by
  unfold unfinished List.rtakeWhile
  rw [List.reverse_append, List.reverse_cons, List.append_assoc, List.singleton_append,
    takeWhile_ne_append_cons]

/-- A stream begins with its first line, if it has one. -/
lemma streamLines_cases (stream : List Char) :
    streamLines stream = [] ∧ '\n' ∉ stream ∨
      ∃ bytes rest, stream = bytes ++ '\n' :: rest ∧ '\n' ∉ bytes ∧
        streamLines stream = bytes.filter (· ≠ '\r') :: streamLines rest := by
  by_cases hlf : '\n' ∈ stream
  · obtain ⟨bytes, rest, rfl, hbytes⟩ := List.eq_append_cons_of_mem hlf
    exact .inr ⟨bytes, rest, rfl, hbytes, streamLines_append hbytes rest⟩
  · refine .inl ⟨?_, hlf⟩
    rw [streamLines, List.splitOn_eq_singleton hlf]
    rfl

/-- The thread waits while a line has not come to its end. -/
lemma reading_eq_none {s : SerialLoop} {stream : List Char} (hport : s.port = stream.map .byte)
    (hlf : '\n' ∉ stream) (hroom : (unfinished stream).length ≤ 1022) : s.reading = none := by
  have hall : stream.rtakeWhile (· ≠ '\n') = stream := by
    rw [List.rtakeWhile_eq_self_iff]
    exact fun c hc => decide_eq_true fun heq => hlf (heq ▸ hc)
  rw [unfinished, hall] at hroom
  have hwaits := nextPiece_waits [] false hlf (by simpa using hroom)
  unfold SerialLoop.reading
  rw [genericRead_eq_nextPiece, hport, hwaits]
  split_ifs <;> rfl

/-- A turn of the thread on a stream that begins with a line. -/
lemma serialLoopStep_line {s : SerialLoop} (hrequest : s.request.Begins requestPrefix)
    (hrunning : s.running = true) {bytes rest : List Char}
    (hport : s.port = (bytes ++ '\n' :: rest).map .byte) (hlf : '\n' ∉ bytes)
    (hnul : '\x00' ∉ bytes) (hlength : (bytes.filter (· ≠ '\r')).length ≤ 1000) {reply : Reply}
    (hreply : reply.goesOn = true) :
    ∃ t, serialLoopStep s reply = some t ∧ t.request.Begins requestPrefix ∧ t.running = true ∧
      t.port = rest.map .byte ∧
      t.sent = s.sent ++ ([bytes.filter (· ≠ '\r')].filter (· ≠ [])).map (requestPrefix ++ ·) := by
  have hpiece := nextPiece_line [] false hlf (by simp only [List.length_nil]; omega)
    (rest.map .byte)
  have hsub : ∀ c ∈ bytes.filter (· ≠ '\r'), c ∈ bytes := fun _ hc => List.mem_of_mem_filter hc
  generalize bytes.filter (· ≠ '\r') = line at hlength hpiece hsub
  have hhead : requestPrefix.length = 12 := by decide
  have hend : cstr (line ++ "\n".toList) = line ++ "\n".toList := by
    refine takeWhile_ne_self ?_
    rw [List.mem_append, not_or]
    exact ⟨fun hmem => hnul (hsub _ hmem), by decide⟩
  have hroom : (line ++ "\n".toList).take (1024 - requestPrefix.length - 1) =
      line ++ "\n".toList := by
    refine List.take_of_length_le ?_
    rw [List.length_append, hhead, show "\n".toList.length = 1 from rfl]
    omega
  have hread : s.reading =
      some (⟨(line ++ "\n".toList).length, line ++ "\n".toList⟩, rest.map .byte) := by
    rw [SerialLoop.reading, if_pos hrunning, genericRead_eq_nextPiece, hport, List.map_append,
      List.map_cons, hpiece, Option.map_some]
    change some (DriverRead.mk (cstr (line ++ "\n".toList)).length
      ((cstr (line ++ "\n".toList)).take _), _) = _
    rw [hend, hroom]
  obtain ⟨request', hturn, hbegins⟩ := serialTurn_eq hrequest (by omega)
    (fun hmem => hnul (hsub _ hmem)) fun hmem => hlf (hsub _ hmem)
  unfold serialLoopStep
  simp only [hread, hturn, Option.bind_eq_bind, Option.bind_some, Option.pure_def]
  by_cases hline : line = []
  · subst hline
    exact ⟨_, rfl, hbegins, hrunning, rfl, (List.append_nil _).symm⟩
  · have hsent : ([line].filter (· ≠ [])).map (requestPrefix ++ ·) = [requestPrefix ++ line] := by
      simp [hline]
    rw [hsent, if_neg hline]
    cases reply with
    | sendFailed => cases hreply
    | recvFailed => exact ⟨_, rfl, hbegins, hrunning, rfl, rfl⟩
    | answered gone => exact ⟨_, rfl, hbegins, hreply, rfl, rfl⟩

/-- The thread goes through the stream line by line. -/
lemma run_serialLoop {replies : List Reply} (hreplies : ∀ reply ∈ replies, reply.goesOn = true)
    {stream : List Char} (hnul : '\x00' ∉ stream)
    (hlines : ∀ line ∈ streamLines stream, line.length ≤ 1000)
    (hcount : replies.length ≤ (streamLines stream).length) {s : SerialLoop}
    (hrequest : s.request.Begins requestPrefix) (hrunning : s.running = true)
    (hport : s.port = stream.map .byte) :
    ∃ t rest, run serialLoopStep s replies = some t ∧ t.port = rest.map .byte ∧
      streamLines rest = (streamLines stream).drop replies.length ∧
      unfinished rest = unfinished stream ∧
      t.sent = s.sent ++ (((streamLines stream).take replies.length).filter (· ≠ [])).map
        (requestPrefix ++ ·) := by
  induction replies generalizing stream s with
  | nil => exact ⟨s, stream, rfl, hport, rfl, rfl, (List.append_nil _).symm⟩
  | cons reply replies ih =>
    obtain ⟨hnone, -⟩ | ⟨bytes, rest, rfl, hbytes, hfirst⟩ := streamLines_cases stream
    · rw [hnone] at hcount
      exact absurd hcount (by simp)
    · rw [List.forall_mem_cons] at hreplies
      rw [hfirst, List.forall_mem_cons] at hlines
      rw [hfirst, List.length_cons, List.length_cons, Nat.succ_le_succ_iff] at hcount
      rw [List.mem_append, List.mem_cons, not_or, not_or] at hnul
      obtain ⟨u, hstep, hrequest', hrunning', hport', hsent⟩ := serialLoopStep_line hrequest
        hrunning hport hbytes hnul.1 hlines.1 hreplies.1
      obtain ⟨t, rest', hrun, hportEnd, hdrop, hrest, hsentEnd⟩ := ih hreplies.2 hnul.2.2
        hlines.2 hcount hrequest' hrunning' hport'
      refine ⟨t, rest', ?_, hportEnd, ?_, ?_, ?_⟩
      · rw [run_cons, hstep, Option.bind_some, hrun]
      · rw [hdrop, hfirst, List.length_cons, List.drop_succ_cons]
      · rw [hrest, unfinished_append]
      · rw [hsentEnd, hsent, hfirst, List.length_cons, List.take_succ_cons, List.append_assoc,
          ← List.map_append, ← List.filter_append, List.singleton_append]

/-- **Every line reaches main once.** For every stream without terminators, with lines of at most
1000 characters once the carriage returns are left out, wherever those are: as long as the loop
goes on, each call takes a line, and what main has got are the lines so far that are not empty, in
their order; then the thread waits for the end of the next line. -/
theorem serialLoop_sends {stream : List Char} (hnul : '\x00' ∉ stream)
    (hlines : ∀ line ∈ streamLines stream, line.length ≤ 1000) {request : Buffer 1024}
    (hrequest : request.Begins requestPrefix) {replies : List Reply}
    (hreplies : ∀ reply ∈ replies, reply.goesOn = true)
    (hcount : replies.length ≤ (streamLines stream).length) :
    ∃ t, run serialLoopStep (.start request (stream.map .byte)) replies = some t ∧
      t.sent = (((streamLines stream).take replies.length).filter (· ≠ [])).map
        (requestPrefix ++ ·) ∧
      (replies.length = (streamLines stream).length → (unfinished stream).length ≤ 1022 →
        t.reading = none) := by
  obtain ⟨t, rest, hrun, hport, hdrop, hrest, hsent⟩ := run_serialLoop hreplies hnul hlines hcount
    (s := .start request (stream.map .byte)) hrequest rfl rfl
  refine ⟨t, hrun, hsent, fun hall hroom => ?_⟩
  rw [hall, List.drop_length] at hdrop
  obtain ⟨-, hlf⟩ | ⟨bytes, rest', -, -, hfirst⟩ := streamLines_cases rest
  · exact reading_eq_none hport hlf (hrest ▸ hroom)
  · rw [hdrop] at hfirst
    cases hfirst

lemma length_requestStart : (requestPrefix ++ List.replicate 1012 '\x00').length = 1024 := by
  rw [List.length_append, List.length_replicate]
  rfl

/-- The buffer of the thread, cleared before the source is printed into it. -/
def requestStart : Buffer 1024 :=
  ⟨requestPrefix ++ List.replicate 1012 '\x00', length_requestStart⟩

/-- Two lines with an empty one between them, and the beginning of another. -/
theorem serialLoop_sends_two_lines :
    ∃ t, run serialLoopStep (.start requestStart ("OK\r\n\r\n\rFA\rIL\nST".toList.map .byte))
        [.recvFailed, .answered false, .answered false] = some t ∧
      t.sent = (((streamLines "OK\r\n\r\n\rFA\rIL\nST".toList).take 3).filter (· ≠ [])).map
        (requestPrefix ++ ·) ∧
      (3 = (streamLines "OK\r\n\r\n\rFA\rIL\nST".toList).length →
        (unfinished "OK\r\n\r\n\rFA\rIL\nST".toList).length ≤ 1022 → t.reading = none) :=
  serialLoop_sends (by decide) (by decide)
    (show requestStart.Begins requestPrefix from List.prefix_append _ _) (by decide) (by decide)

end SerialChrono
