import SerialChrono.Config
import SerialChrono.Queue.Model
import SerialChrono.Events.TinyJson
import SerialChrono.Library.ParseInt
import SerialChrono.Library.PartialRun

/-!
# The browser's polls of the output queue (`web_server.c`, `crono.js`)

A browser asks `readData` for the next command by sending a count, `lastID`, of the commands it
has parsed; the server answers with the message of the smallest queue index not below that
count, or with the oldest one while the count is zero, and echoes the count.  The two numberings
agree only while the browser has been given every message from index zero on, and has been able to
read the replies: one that is not JSON is an error to it, and the count stays.

`Page` is one browser's view: the queue, the count, and the messages delivered so far.  The
delivered indexes increase strictly through a run exactly when, at each poll, the message
delivered last either was numbered below the count or has left the queue
(`page_increasing_iff`).  How the browser reads a text as JSON is a parameter.
-/

namespace SerialChrono

open CText JsNumber LinkedChain PartialRun

/-! ## `readData` -/

/-- The fields of the JSON object `readData` writes.  `command` is the queue item whose message
the object carries. -/
structure ReadDataReply where
  F : ℤ
  R : ℤ
  E : ℤ
  D : ℤ
  command : Option QItem
  ID : ℤ
  ring : Option ℤ

/-- `readData` for a request whose `ID` argument is `cmdid`. -/
def readData (config : Configuration) (outputQueue : Queue) (cmdid : ℤ) :
    Option ReadDataReply :=
  (queuePick outputQueue (if cmdid ≤ 0 then -1 else cmdid)).map fun command =>
    { F := config.status.faults + config.status.touchs
      R := config.status.refusals
      E := config.status.eliminated
      D := config.status.numero
      command := command
      ID := cmdid
      ring := if cmdid = 0 then some config.ring else none }

/-- The texts `readData` prints, one after the other. -/
def ReadDataReply.texts (r : ReadDataReply) : List CString :=
  ("\x7b\"F\":\"".toList ++ printInt r.F ++ "\",\"R\":\"".toList ++ printInt r.R ++
    "\",\"E\":\"".toList ++ printInt r.E ++ "\",\"D\":\"".toList ++ printInt r.D ++
    "\"".toList) ::
  (r.command.toList.map (fun item => ",\"Command\":\"".toList ++ item.msg ++ "\"".toList) ++
    [",\"ID\":\"".toList ++ printInt r.ID ++ "\"".toList] ++
    r.ring.toList.map (fun ring => ",\"Ring\":\"".toList ++ printInt ring ++ "\"".toList) ++
    ["\x7d".toList])

/-! ## One browser -/

/-- What the page reads of a reply: the text of `ID`, and whether `Command` counts as true. -/
structure PageData where
  ID : CString
  hasCommand : Bool

/-- The output queue and one browser polling it. -/
structure Page where
  queue : Queue
  /-- The browser's count of the commands it has parsed. -/
  lastID : Number
  /-- The messages `readData` has delivered to it, in order. -/
  delivered : List QItem

/-- Nothing queued yet, and a page that has just been loaded or will be. -/
def Page.start : Page := ⟨queueCreate, .whole 0, []⟩

/-- The count in a request, as the server reads it. -/
def Page.cmdid (p : Page) : ℤ := atoi (numberText p.lastID)

/-- What happens to the queue and the browser: the web manager puts and expires messages, and
the page polls. -/
inductive PageEvent
  | put (now : ℤ) (msg : CString)
  | expire (now : ℤ)
  | poll (config : Configuration)

/-- The handling of a reply by the page.  `readData`'s `success` sets `lastID` to the echoed `ID`,
and `parseCommand` adds one if there is a command; for a text that is not JSON, `error` does
nothing but poll again. -/
def Page.receive (parseJSON : CString → Option PageData) (p : Page) (reply : ReadDataReply) :
    Page :=
  let p := { p with delivered := p.delivered ++ reply.command.toList }
  match parseJSON reply.texts.flatten with
  | none => p
  | some data =>
    let lastID := parseInt data.ID
    { p with lastID := if data.hasCommand then incremented 1 lastID else lastID }

/-- One event. -/
def pageStep (parseJSON : CString → Option PageData) (p : Page) : PageEvent → Option Page
  | .put now msg => some { p with queue := (queuePut p.queue now msg).1 }
  | .expire now => (queueExpire p.queue now).map fun q => { p with queue := q }
  | .poll config => (readData config p.queue p.cmdid).map (p.receive parseJSON)

/-- The queue indexes delivered so far are strictly increasing. -/
def Page.Increasing (p : Page) : Prop :=
  p.delivered.Pairwise fun x y => x.index < y.index

/-- The items reachable from `last_out`, oldest first. -/
def Queue.items (q : Queue) : Option (List QItem) :=
  foldChain q.heap (fun items pt => pt :: items) q.heap.top q.lastOut []

/-- At a poll, the message delivered last was numbered below the browser's count, or is not in
the queue any more. -/
def Page.InStep (p : Page) : PageEvent → Prop
  | .poll _ => ∀ last ∈ p.delivered.getLast?,
      last.index < p.cmdid ∨ ∀ items ∈ p.queue.items, last ∉ items
  | _ => True

/-! ## The invariant -/

lemma Represents.items_eq {q : Queue} {held : List QItem} (h : Represents q held) :
    q.items = some held := by
  obtain ⟨path, hpath, hvals, -, hlen⟩ := h.chain
  rw [Queue.items, foldChain_eq hpath hlen, hvals, List.foldl_reverse, List.foldr_cons_nil]

/-- Every message delivered is still held, or only newer ones are. -/
structure Page.Linked (p : Page) (held : List QItem) : Prop where
  represents : Represents p.queue held
  /-- The first index given out is zero. -/
  counted : (held.length : ℤ) ≤ p.queue.lastIndex
  past : ∀ x ∈ p.delivered, 0 ≤ x.index ∧ x.index < p.queue.lastIndex ∧
    (x ∈ held ∨ ∀ y ∈ held, x.index < y.index)

lemma linked_start : Page.start.Linked [] :=
  ⟨represents_queueCreate, le_refl _, by simp [Page.start]⟩

/-- The message a poll picks is held, and it is the oldest one that qualifies. -/
lemma pickHeld_eq_some {a : ℤ} {held : List QItem} (hidx : IndexedFrom a held) {id : ℤ}
    {x : QItem} (h : pickHeld held id = some x) :
    x ∈ held ∧ (0 ≤ id → id ≤ x.index) ∧ ∀ y ∈ held, id ≤ y.index → x.index ≤ y.index := by
  unfold pickHeld at h
  split at h
  · next hneg =>
    refine ⟨List.mem_of_head? h, fun h0 => absurd hneg (not_lt.mpr h0), fun y hy _ => ?_⟩
    obtain ⟨rest, rfl⟩ := List.head?_eq_some_iff.mp h
    rw [hidx.1]
    exact (hidx.index_mem hy).1
  · refine ⟨List.mem_of_find?_eq_some h, fun _ => by simpa using List.find?_some h, ?_⟩
    obtain ⟨hx, before, after, rfl, hbefore⟩ := List.find?_eq_some_iff_append.mp h
    intro y hy hid
    have hsplit := indexedFrom_append.mp hidx
    rcases List.mem_append.mp hy with hy | hy
    · -- nothing before the item found qualifies
      have := hbefore y hy
      simp only [Bool.not_eq_true', decide_eq_false_iff_not] at this
      exact absurd hid this
    · have hxi := hsplit.2.1
      have := hsplit.2.index_mem hy
      omega

lemma Page.Linked.put {p : Page} {held : List QItem} (h : p.Linked held) (now : ℤ)
    (msg : CString) :
    Page.Linked { p with queue := (queuePut p.queue now msg).1 }
      (held ++ [(queuePut p.queue now msg).2]) := by
  have hcounted := h.counted
  refine ⟨queuePut_spec h.represents now msg, ?_, fun x hx => ?_⟩
  · simp only [queuePut, List.length_append, List.length_singleton]
    omega
  obtain ⟨hpos, hlt, hheld⟩ := h.past x hx
  refine ⟨hpos, by simp only [queuePut]; omega, ?_⟩
  rcases hheld with hmem | hnewer
  · exact Or.inl (List.mem_append_left _ hmem)
  · right
    intro y hy
    rcases List.mem_append.mp hy with hy | hy
    · exact hnewer y hy
    · rw [List.mem_singleton.mp hy]
      exact hlt

lemma Page.Linked.expire {p : Page} {held : List QItem} (h : p.Linked held) (now : ℤ) :
    ∃ q held', queueExpire p.queue now = some q ∧ Page.Linked { p with queue := q } held' := by
  obtain ⟨q, hq, hidx, hrep⟩ := queueExpire_spec h.represents now
  have hcounted := h.counted
  refine ⟨q, _, hq, hrep, ?_, fun x hx => ?_⟩
  · split <;> simp only [List.length_nil] <;> omega
  obtain ⟨hpos, hlt, hheld⟩ := h.past x hx
  refine ⟨hpos, by simp only; omega, ?_⟩
  split
  · exact Or.inr (by simp)
  · exact hheld

/-- The message a poll of a linked page delivers. -/
def Page.next (p : Page) (held : List QItem) : Option QItem :=
  pickHeld held (if p.cmdid ≤ 0 then -1 else p.cmdid)

variable {parseJSON : CString → Option PageData}

/-- A poll delivers that message, whether the page can read it or not. -/
lemma Page.Linked.poll_eq {p : Page} {held : List QItem} (h : p.Linked held)
    (parseJSON : CString → Option PageData) (config : Configuration) :
    ∃ lastID, pageStep parseJSON p (.poll config) =
      some { p with lastID, delivered := p.delivered ++ (p.next held).toList } := by
  simp only [pageStep, readData, queuePick_spec h.represents, Option.map_some, Page.receive]
  split
  · exact ⟨p.lastID, rfl⟩
  · exact ⟨_, rfl⟩

/-- A page delivers some message whenever one it has not counted is held. -/
lemma Page.next_isSome {p : Page} {held : List QItem} {x : QItem} (hx : x ∈ held)
    (hid : p.cmdid ≤ x.index) : ∃ y, p.next held = some y := by
  unfold Page.next pickHeld
  by_cases h0 : p.cmdid ≤ 0
  · obtain ⟨y, hy⟩ := List.isSome_head?.mpr (List.ne_nil_of_mem hx) |> Option.isSome_iff_exists.mp
    exact ⟨y, by simp [h0, hy]⟩
  · rw [if_neg h0, if_neg (by omega), ← Option.isSome_iff_exists, List.find?_isSome]
    exact ⟨x, hx, by simpa using hid⟩

lemma Page.Linked.deliver {p : Page} {held : List QItem} (h : p.Linked held) (lastID : Number) :
    Page.Linked { p with lastID, delivered := p.delivered ++ (p.next held).toList } held := by
  refine ⟨h.represents, h.counted, fun y hy => ?_⟩
  rcases List.mem_append.mp hy with hy | hy
  · exact h.past y hy
  · have hmem := (pickHeld_eq_some h.represents.indexed (Option.mem_toList.mp hy)).1
    have hindex := h.represents.indexed.index_mem hmem
    have hcounted := h.counted
    exact ⟨by omega, by simp only; omega, Or.inl hmem⟩

/-- Every event keeps the page linked to what the queue holds. -/
lemma linked_step (p : Page) (e : PageEvent) (t : Page) (h : ∃ held, p.Linked held)
    (ht : pageStep parseJSON p e = some t) : ∃ held, t.Linked held := by
  obtain ⟨held, h⟩ := h
  cases e with
  | put now msg =>
    cases ht
    exact ⟨_, h.put now msg⟩
  | expire now =>
    obtain ⟨q, held', hq, hlinked⟩ := h.expire now
    rw [pageStep, hq] at ht
    cases ht
    exact ⟨held', hlinked⟩
  | poll config =>
    obtain ⟨lastID, hpoll⟩ := h.poll_eq parseJSON config
    cases hpoll.symm.trans ht
    exact ⟨held, h.deliver lastID⟩

/-- The delivery of `x` keeps the indexes increasing exactly when the one delivered before it
is smaller. -/
lemma Page.increasing_append {p : Page} (hp : p.Increasing) (x : QItem) (n : Number) :
    Page.Increasing { p with lastID := n, delivered := p.delivered ++ [x] } ↔
      ∀ last ∈ p.delivered.getLast?, last.index < x.index := by
  unfold Page.Increasing at *
  rw [List.pairwise_append]
  constructor
  · rintro ⟨-, -, h⟩ last hlast
    exact h last (List.mem_of_getLast? hlast) x (by simp)
  · refine fun h => ⟨hp, by simp, fun y hy z hz => ?_⟩
    rw [List.mem_singleton.mp hz]
    rcases List.eq_nil_or_concat p.delivered with hnil | ⟨init, last, hsnoc⟩
    · simp [hnil] at hy
    · rw [List.concat_eq_append] at hsnoc
      have hlast := h last (by simp [hsnoc])
      rw [hsnoc] at hy hp
      rcases List.mem_append.mp hy with hy | hy
      · have := (List.pairwise_append.mp hp).2.2 y hy last (by simp)
        omega
      · rw [List.mem_singleton.mp hy]
        exact hlast

/-- One poll: the delivered indexes stay increasing exactly when the page is in step. -/
lemma increasing_poll_iff {p t : Page} {held : List QItem} (h : p.Linked held)
    (hp : p.Increasing) {config : Configuration}
    (ht : pageStep parseJSON p (.poll config) = some t) :
    t.Increasing ↔ p.InStep (.poll config) := by
  obtain ⟨lastID, hpoll⟩ := h.poll_eq parseJSON config
  cases hpoll.symm.trans ht
  simp only [Page.InStep, h.represents.items_eq, Option.mem_def, Option.some.injEq,
    forall_eq']
  cases hnext : p.next held with
  | none =>
    refine iff_of_true (by simpa [Page.Increasing] using hp) fun last _ => ?_
    by_cases hmem : last ∈ held
    · left
      by_contra hge
      obtain ⟨y, hy⟩ := Page.next_isSome hmem (not_lt.mp hge)
      rw [hnext] at hy
      cases hy
    · exact Or.inr hmem
  | some x =>
    rw [Option.toList_some, Page.increasing_append hp]
    obtain ⟨hx, hge, hfirst⟩ := pickHeld_eq_some h.represents.indexed hnext
    refine forall₂_congr fun last hlast => ?_
    obtain ⟨hpos, -, hheld⟩ := h.past last (List.mem_of_getLast? hlast)
    constructor
    · -- a held message not below the count would have been picked instead
      intro hlt
      by_cases hmem : last ∈ held
      · left
        by_contra hnot
        have := hfirst last hmem (by split <;> omega)
        omega
      · exact Or.inr hmem
    · rintro (hlt | hgone)
      · rw [if_neg (by omega)] at hge
        have := hge (by omega)
        omega
      · rcases hheld with hmem | hnewer
        · exact absurd hmem hgone
        · exact hnewer x hx

/-- **When a browser gets each command at most once and in order.** Along every interleaving of
puts, expiries and polls, and whatever the browser makes of the replies, the delivered indexes stay
strictly increasing if and only if, at each poll, the message delivered last was numbered below the
browser's count or has left the queue. -/
theorem page_increasing_iff (parseJSON : CString → Option PageData) (events : List PageEvent) :
    Always (pageStep parseJSON) Page.Increasing Page.start events ↔
      Along (pageStep parseJSON) Page.InStep Page.start events := by
  refine always_iff_along linked_step ?_ ⟨[], linked_start⟩ (by simp [Page.Increasing, Page.start])
  rintro p e t ⟨held, h⟩ hp ht
  cases e with
  | put now msg =>
    cases ht
    exact iff_of_true hp trivial
  | expire now =>
    obtain ⟨q, held', hq, -⟩ := h.expire now
    rw [pageStep, hq] at ht
    cases ht
    exact iff_of_true hp trivial
  | poll config => exact increasing_poll_iff h hp ht

/-- A reply as `tiny-json` reads it, which is as a browser does if the message is plain. -/
def replyData (body : CString) : Option PageData := do
  let root ← TinyJson.jsonCreate body 16
  let ID ← root.getPropertyValue "ID".toList
  return ⟨ID, (root.getPropertyValue "Command".toList).any (· ≠ [])⟩

lemma delivered_twice : (run (pageStep replyData) Page.start [.put 0 "fail".toList, .expire 20000,
    .put 20000 "ok".toList, .poll defaultOptions, .poll defaultOptions]).map
      (fun p => p.delivered.map QItem.index) = some [1, 1] := by decide +kernel

/-- A message expires before the page is opened: the next one is delivered twice. -/
theorem page_repeats :
    ¬ ∀ (parseJSON : CString → Option PageData) (events : List PageEvent),
      Always (pageStep parseJSON) Page.Increasing Page.start events := by
  intro h
  obtain ⟨t, ht, hdel⟩ := Option.map_eq_some_iff.mp delivered_twice
  have hinc := always_iff_run.mp (h replyData _) _ t (List.prefix_refl _) ht
  rw [Page.Increasing, ← List.pairwise_map (f := QItem.index) (R := (· < ·)), hdel] at hinc
  exact absurd hinc (by decide)

-- a message that makes the reply no JSON comes back at every poll
example : (run (pageStep replyData) Page.start [.put 0 "msg 5 \"hola\"".toList,
    .poll defaultOptions, .poll defaultOptions]).map (fun p => (p.lastID, p.delivered.length)) =
    some (.whole 0, 2) := by decide +kernel

end SerialChrono
