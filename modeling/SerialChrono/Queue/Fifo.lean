import SerialChrono.Queue.Model
import SerialChrono.Library.PartialRun

/-!
# When the message queue is first-in-first-out

A `QueueLog` is a queue together with what has happened on it: the messages put, the messages
`queue_get` returned, and, for each NULL it returned, how many gets had succeeded and how many
puts had been made by then.  `Fifo` is the contract of a first-in-first-out queue on such a
log: the messages returned are the messages put, in that order, and NULL comes only when every
message put has been returned.

The queue keeps that contract along a sequence of calls exactly when no `queue_get` is made
after one that found two or more messages waiting (`queueCalls_fifo_iff`).  The get that finds
them still answers correctly; it is the one after it that shows the messages are gone.
-/

namespace SerialChrono

open CText PartialRun

/-- A call of a client of the queue. -/
inductive QueueCall
  | put (now : ℤ) (msg : CString)
  | get

/-- A queue and the history of the calls made on it. -/
structure QueueLog where
  queue : Queue
  /-- The messages put, in order. -/
  puts : List QItem
  /-- The messages returned by `queue_get`, in order. -/
  got : List QItem
  /-- For every NULL result, the successful gets and the puts made before it. -/
  nulls : List (ℕ × ℕ)

/-- A queue just made by `queue_create`. -/
def QueueLog.start : QueueLog := ⟨queueCreate, [], [], []⟩

/-- One call, recorded. -/
def queueCallStep (s : QueueLog) : QueueCall → Option QueueLog
  | .put now msg =>
    let r := queuePut s.queue now msg
    some { s with queue := r.1, puts := s.puts ++ [r.2] }
  | .get =>
    (queueGet s.queue).map fun r =>
      match r.2 with
      | some x => { s with queue := r.1, got := s.got ++ [x] }
      | none => { s with queue := r.1, nulls := s.nulls ++ [(s.got.length, s.puts.length)] }

/-- The contract of a first-in-first-out queue, on what has happened so far. -/
structure Fifo (s : QueueLog) : Prop where
  inOrder : s.got <+: s.puts
  nullOnlyWhenDrained : ∀ n ∈ s.nulls, n.1 = n.2

/-- No `queue_get` comes after one that found two or more messages waiting.  `waiting` counts
the messages put since the last get, and `lost` says that a get has found two or more. -/
def FifoUse : (waiting : ℕ) → (lost : Bool) → List QueueCall → Prop
  | _, _, [] => True
  | waiting, lost, .put _ _ :: calls => FifoUse (waiting + 1) lost calls
  | waiting, lost, .get :: calls => lost = false ∧ FifoUse 0 (decide (2 ≤ waiting)) calls

/-- The messages put are the ones returned, then the ones no get will return any more, then
the ones held. -/
structure QueueLog.Splits (s : QueueLog) (missed held : List QItem) : Prop where
  represents : Represents s.queue held
  puts_eq : s.puts = s.got ++ missed ++ held
  indexed : IndexedFrom 0 s.puts
  counted : s.queue.lastIndex = s.puts.length
  drained : ∀ n ∈ s.nulls, n.1 = n.2

lemma splits_start : QueueLog.start.Splits [] [] :=
  ⟨represents_queueCreate, rfl, trivial, rfl, by simp [QueueLog.start]⟩

namespace QueueLog.Splits

variable {s : QueueLog} {missed held : List QItem}

lemma fifo (h : s.Splits missed held) : Fifo s := by
  refine ⟨?_, h.drained⟩
  rw [h.puts_eq, List.append_assoc]
  exact List.prefix_append _ _

/-- A put adds to the messages held. -/
lemma put (h : s.Splits missed held) (now : ℤ) (msg : CString) :
    ∃ t x, queueCallStep s (.put now msg) = some t ∧ t.Splits missed (held ++ [x]) := by
  refine ⟨_, (queuePut s.queue now msg).2, rfl, queuePut_spec h.represents now msg, ?_, ?_, ?_,
    h.drained⟩
  · simp [h.puts_eq]
  · rw [indexedFrom_append]
    refine ⟨h.indexed, ?_, trivial⟩
    simp [queuePut, h.counted]
  · simp [queuePut, h.counted]

/-- A get on an empty queue, when nothing has been missed, returns NULL rightly. -/
lemma get_nil (h : s.Splits [] []) :
    ∃ t, queueCallStep s .get = some t ∧ t.Splits [] [] := by
  obtain ⟨q, hget, hq, hidx⟩ := queueGet_spec h.represents
  refine ⟨{ s with queue := q, nulls := s.nulls ++ [(s.got.length, s.puts.length)] }, ?_, hq,
    h.puts_eq, h.indexed, hidx.trans h.counted, ?_⟩
  · simp [queueCallStep, hget]
  · intro n hn
    rcases List.mem_append.mp hn with hn | hn
    · exact h.drained n hn
    · rw [List.mem_singleton.mp hn, h.puts_eq]
      simp

/-- A get returns the oldest message held; the others are missed from then on. -/
lemma get_cons {x : QItem} {rest : List QItem} (h : s.Splits [] (x :: rest)) :
    ∃ t, queueCallStep s .get = some t ∧ t.Splits rest [] := by
  obtain ⟨q, hget, hq, hidx⟩ := queueGet_spec h.represents
  refine ⟨{ s with queue := q, got := s.got ++ [x] }, ?_, hq, ?_, h.indexed,
    hidx.trans h.counted, h.drained⟩
  · simp [queueCallStep, hget]
  · simp [h.puts_eq]

/-- After a message has been missed, whatever the next get returns breaks the contract. -/
lemma not_fifo_get {y : QItem} {missed : List QItem} (h : s.Splits (y :: missed) held)
    {t : QueueLog} (ht : queueCallStep s .get = some t) : ¬ Fifo t := by
  obtain ⟨q, hget, -, -⟩ := queueGet_spec h.represents
  rw [queueCallStep, hget] at ht
  intro hfifo
  cases held with
  | nil =>
    cases ht
    have := hfifo.nullOnlyWhenDrained (s.got.length, s.puts.length) (by simp)
    simp [h.puts_eq] at this
  | cons x held =>
    cases ht
    -- the message returned would have to be `y`, whose index is smaller
    have hpre : s.got ++ [x] <+: s.got ++ (y :: missed ++ x :: held) := by
      have := hfifo.inOrder
      simpa [h.puts_eq, List.append_assoc] using this
    have hxy : x = y := by
      have := (List.prefix_append_right_inj _).mp hpre
      simpa using this
    have hidx := h.indexed
    rw [h.puts_eq, List.append_assoc, indexedFrom_append] at hidx
    have hy : y.index = 0 + s.got.length := hidx.2.1
    have hx : x.index = 0 + (s.got.length : ℤ) + 1 + missed.length :=
      (indexedFrom_append.mp hidx.2.2).2.1
    rw [hxy] at hx
    omega

end QueueLog.Splits

lemma always_fifo_iff {s : QueueLog} {missed held : List QItem} (h : s.Splits missed held)
    (calls : List QueueCall) :
    Always queueCallStep Fifo s calls ↔ FifoUse held.length (decide (missed ≠ [])) calls := by
  induction calls generalizing s missed held with
  | nil => simp [Always, FifoUse, h.fifo]
  | cons call calls ih =>
    cases call with
    | put now msg =>
      obtain ⟨t, x, ht, hsplits⟩ := h.put now msg
      simp only [Always, FifoUse, ht, Option.some.injEq, forall_eq', h.fifo, true_and,
        ih hsplits, List.length_append, List.length_singleton]
    | get =>
      cases missed with
      | cons y missed =>
        obtain ⟨q, hget, -, -⟩ := queueGet_spec h.represents
        constructor
        · rintro ⟨-, hnext⟩
          have ht : ∃ t, queueCallStep s .get = some t := by simp [queueCallStep, hget]
          obtain ⟨t, ht⟩ := ht
          exact absurd (hnext t ht).head (h.not_fifo_get ht)
        · rintro ⟨hlost, -⟩
          simp at hlost
      | nil =>
        cases held with
        | nil =>
          obtain ⟨t, ht, hsplits⟩ := h.get_nil
          simp [Always, FifoUse, ht, h.fifo, ih hsplits]
        | cons x rest =>
          obtain ⟨t, ht, hsplits⟩ := h.get_cons
          have hrest : decide (rest ≠ []) = decide (2 ≤ (x :: rest).length) := by
            cases rest <;> simp
          simp only [Always, FifoUse, ht, Option.some.injEq, forall_eq', h.fifo, true_and,
            ih hsplits, List.length_nil, hrest]
          simp

/-- **When the queue is first-in-first-out.** For every sequence of calls on a new queue, the
contract holds throughout if and only if no get follows a get that found two or more messages
waiting. -/
theorem queueCalls_fifo_iff (calls : List QueueCall) :
    Always queueCallStep Fifo QueueLog.start calls ↔ FifoUse 0 false calls :=
  always_fifo_iff splits_start calls

/-- Two messages put before the first get: the second is never returned. -/
theorem queueCalls_not_fifo :
    ¬ ∀ calls, Always queueCallStep Fifo QueueLog.start calls := by
  intro h
  have hrun := always_iff_run.mp
    (h [.put 0 "start 0".toList, .put 1 "stop 9".toList, .get, .get])
  obtain ⟨t, ht, hnulls⟩ : ∃ t, run queueCallStep QueueLog.start
      [.put 0 "start 0".toList, .put 1 "stop 9".toList, .get, .get] = some t ∧
      t.nulls = [(1, 2)] := ⟨_, rfl, rfl⟩
  have := (hrun _ t (List.prefix_refl _) ht).nullOnlyWhenDrained (1, 2) (by simp [hnulls])
  exact absurd this (by decide)

end SerialChrono
