import SerialChrono.Queue.Held
import Mathlib.Data.List.Chain

/-!
# The size of the queue (`queue_size`)

`queue_size` does not walk the list: it subtracts the index of `first_out` from the one of
`last_out`.  That is the number of nodes because every operation keeps the indexes on the chain
consecutive and both ends on it, `queue_get` included, which leaves both ends null
(`queueSize_reached`).
-/

namespace SerialChrono

open CText LinkedChain PartialRun

/-- `queue_size`. -/
def queueSize (q : Queue) : Option ℕ :=
  match q.firstOut with
  | none => some 0
  | some first =>
    match q.lastOut.bind q.heap.cell, q.heap.cell first with
    | some newest, some oldest => some (toUInt64 (1 + newest.val.index - oldest.val.index))
    | _, _ => none

/-- The nodes of a chain, newest first, with the index going down by one at each of them. -/
def CountsDown (path : List (ℕ × QItem)) : Prop :=
  path.IsChain fun newer older => newer.2.index = older.2.index + 1

lemma IndexedFrom.isChain {a : ℤ} {held : List QItem} (h : IndexedFrom a held) :
    held.IsChain fun older newer => newer.index = older.index + 1 := by
  induction held generalizing a with
  | nil => exact .nil
  | cons x rest ih =>
    obtain ⟨hx, hrest⟩ := h
    cases rest with
    | nil => exact .singleton x
    | cons y rest => exact .cons_cons (by rw [hrest.1, hx]) (ih hrest)

lemma countsDown_of_indexedFrom {a : ℤ} {held : List QItem} {path : List (ℕ × QItem)}
    (h : IndexedFrom a held) (hvals : path.map Prod.snd = held.reverse) : CountsDown path := by
  have hchain := List.isChain_reverse.mpr h.isChain
  rw [← hvals, List.isChain_map] at hchain
  exact hchain

/-- The last of consecutively indexed items is numbered by their count. -/
lemma IndexedFrom.last_index {a : ℤ} {held : List QItem} {last : QItem}
    (h : IndexedFrom a (held ++ [last])) : last.index = a + held.length :=
  (indexedFrom_append.mp h).2.1

/-- `queue_size` of a queue that holds few enough messages is their number. -/
lemma Represents.size_eq {q : Queue} {held : List QItem} (h : Represents q held)
    (hlen : held.length < 2 ^ 64) : queueSize q = some held.length := by
  rcases held with - | ⟨oldest, rest⟩
  · simp [queueSize, h.firstOut_nil.1]
  · obtain ⟨first, hfirst, holdest⟩ := h.ends
    obtain ⟨path, hpath, hvals, -, -⟩ := h.chain
    obtain ⟨init, newest, hsnoc⟩ : ∃ init newest, oldest :: rest = init ++ [newest] :=
      ⟨_, _, (List.dropLast_append_getLast (List.cons_ne_nil oldest rest)).symm⟩
    -- the newest message is the one `last_out` points to
    have hlast : ∃ c, q.lastOut.bind q.heap.cell = some c ∧ c.val = newest := by
      cases path with
      | nil => simp at hvals
      | cons x path =>
        obtain ⟨c, hlast, hcell, hval, -⟩ := hpath.cons_inv
        refine ⟨c, by simp [hlast, hcell], ?_⟩
        rw [hsnoc, List.reverse_append] at hvals
        rw [hval]
        exact List.head_eq_of_cons_eq hvals
    obtain ⟨c, hc, rfl⟩ := hlast
    have holdestIndex := h.indexed.1
    have hindexed := h.indexed
    rw [hsnoc] at hindexed
    have hnewestIndex := hindexed.last_index
    have hcount : (oldest :: rest).length = init.length + 1 := by
      rw [hsnoc, List.length_append, List.length_singleton]
    have hsize : 1 + c.val.index - oldest.index = ((oldest :: rest).length : ℤ) := by
      rw [hnewestIndex, holdestIndex, ← hsnoc, hcount]
      push_cast
      ring
    have hsizeT : toUInt64 ((oldest :: rest).length : ℤ) = (oldest :: rest).length := by
      unfold toUInt64
      omega
    simp only [queueSize, hfirst, hc, holdest, hsize, hsizeT]

/-- **The representation invariant of the queue.** After any sequence of calls on a new queue,
with fewer messages put in than the counter has values, the two ends are null together, `next`
leads from `last_out` to `first_out` as its last node with the index one less at each node, and
`queue_size` is the number of nodes. -/
theorem queueSize_reached (ops : List QueueOp) (hcounter : (putTimes ops).length < 2 ^ 31) :
    ∃ q path, run queueOpStep queueCreate ops = some q ∧
      (q.firstOut = none ↔ q.lastOut = none) ∧
      Path q.heap q.lastOut path none ∧ q.firstOut = path.getLast?.map Prod.fst ∧
      CountsDown path ∧ queueSize q = some path.length := by
  obtain ⟨q, held, hrun, h⟩ := heldFrom_run ops
  obtain ⟨path, hpath, hvals, hfirst, -⟩ := h.represents.chain
  have hlen : path.length = held.length := by
    have hreverse : held.reverse.length = held.length := List.length_reverse
    rw [← hreverse, ← hvals, List.length_map]
  have hheld : held.length ≤ (putTimes ops).length := by
    simpa using h.expiring.length_le
  refine ⟨q, path, hrun, ?_, hpath, hfirst, ?_, ?_⟩
  · rw [hfirst, hpath.start_eq_none_iff]
    simp
  · exact countsDown_of_indexedFrom h.represents.indexed hvals
  · rw [hlen]
    exact h.represents.size_eq (by omega)

/-- Two messages, one taken out, and two more. -/
theorem queueSize_reached_puts :
    ∃ q path, run queueOpStep queueCreate
        [.put 0 "start 0".toList, .put 10 "int 5".toList, .get, .put 20 "stop 9".toList,
          .put 30 "reset".toList] = some q ∧
      (q.firstOut = none ↔ q.lastOut = none) ∧
      Path q.heap q.lastOut path none ∧ q.firstOut = path.getLast?.map Prod.fst ∧
      CountsDown path ∧ queueSize q = some path.length :=
  queueSize_reached _ (by decide)

end SerialChrono
