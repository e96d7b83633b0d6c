import SerialChrono.Library.LinkedChain
import SerialChrono.Library.CText

/-!
# The message queue of `sc_tools.c`

`queue_t` is a singly linked list with two ends: `last_out`, where `queue_put` links a new
item in front, and `first_out`, the item the next `queue_get` takes.  The items live in a heap
(`LinkedChain`), and a function that follows a dangling pointer has no result (`none`).

`next` runs from the newest item to the oldest, so the oldest item's `next` is null, and
`queue_get`, which replaces `first_out` by that `next`, leaves *both* ends null.  The abstract
counterpart of the queue is therefore not a first-in-first-out buffer but the list `held` of
the messages put since it was last empty, of which a get returns the first and discards the
rest.  `Represents` relates the two, and every operation has one specification lemma over it:
`queuePut_spec`, `queueGet_spec`, `queuePick_spec`, `queueExpire_spec`.  No operation on a
represented queue follows a dangling pointer.
-/

namespace SerialChrono

open CText LinkedChain

/-! ## The data structure -/

/-- `qitem_t`, its `next` pointer apart. -/
structure QItem where
  /-- Clock value, in milliseconds, from which the item is stale. -/
  expire : ℤ
  index : ℤ
  msg : CString
  deriving DecidableEq, Repr

/-- `queue_t`, with the heap its items live in. -/
structure Queue where
  lastIndex : ℤ
  firstOut : Option ℕ
  lastOut : Option ℕ
  heap : Heap QItem

/-- `queue_create`: `calloc` leaves both ends null and the counter at zero. -/
def queueCreate : Queue := ⟨0, none, none, .empty⟩

/-- `queue_put` at clock value `now`, with the item it returns. -/
def queuePut (q : Queue) (now : ℤ) (msg : CString) : Queue × QItem :=
  let item : QItem := { expire := 15000 + now, index := q.lastIndex, msg := msg }
  let a := q.heap.top
  ({ lastIndex := q.lastIndex + 1
     heap := q.heap.alloc ⟨item, q.lastOut⟩
     lastOut := some a
     -- on empty queue set first to out on new item
     firstOut := if q.lastOut = none then some a else q.firstOut },
   item)

/-- `queue_get`, returning the item whose message it hands out. -/
def queueGet (q : Queue) : Option (Queue × Option QItem) :=
  match q.firstOut with
  | none => some (q, none)
  | some a =>
    match q.heap.cell a with
    | none => none
    | some c =>
      some ({ q with
        firstOut := c.next
        lastOut := if c.next = none then none else q.lastOut
        heap := q.heap.free a }, some c.val)

/-- `queue_pick`, returning the item whose message it copies. -/
def queuePick (q : Queue) (id : ℤ) : Option (Option QItem) :=
  match q.firstOut with
  | none => some none
  | some a =>
    if id < 0 then (q.heap.cell a).map fun c => some c.val
    else
      match q.lastOut.bind q.heap.cell with
      | none => none
      | some newest =>
        if newest.val.index < id then some none
        else
          (foldChain q.heap (fun nearest pt => if id ≤ pt.index then pt else nearest)
            q.heap.top q.lastOut newest.val).map some

/-- The loop of `queue_expire`, at most `fuel` times round. -/
def queueExpireLoop (now : ℤ) : ℕ → Queue → Option Queue
  | fuel, q =>
    match q.firstOut with
    | none => some q
    | some a =>
      match q.heap.cell a with
      | none => none
      | some c =>
        if now < c.val.expire then some q
        else
          match fuel with
          | 0 => none
          | fuel + 1 => (queueGet q).bind fun r => queueExpireLoop now fuel r.1

/-- `queue_expire` at clock value `now`. -/
def queueExpire (q : Queue) (now : ℤ) : Option Queue := queueExpireLoop now q.heap.top q

/-! ## What the queue holds -/

/-- The items of `held` carry the indexes `a`, `a + 1`, ... in order. -/
def IndexedFrom : ℤ → List QItem → Prop
  | _, [] => True
  | a, x :: xs => x.index = a ∧ IndexedFrom (a + 1) xs

lemma indexedFrom_append {a : ℤ} {xs ys : List QItem} :
    IndexedFrom a (xs ++ ys) ↔ IndexedFrom a xs ∧ IndexedFrom (a + xs.length) ys := by
  induction xs generalizing a with
  | nil => simp [IndexedFrom]
  | cons x xs ih =>
    simp only [List.cons_append, IndexedFrom, ih, List.length_cons, and_assoc]
    rw [show a + 1 + (xs.length : ℤ) = a + ((xs.length + 1 : ℕ) : ℤ) by push_cast; omega]

/-- Every index of a consecutively indexed list lies in its range. -/
lemma IndexedFrom.index_mem {a : ℤ} {xs : List QItem} (h : IndexedFrom a xs) {x : QItem}
    (hx : x ∈ xs) : a ≤ x.index ∧ x.index < a + xs.length := by
  induction xs generalizing a with
  | nil => cases hx
  | cons y ys ih =>
    obtain ⟨hy, hys⟩ := h
    simp only [List.length_cons]
    rcases List.mem_cons.mp hx with rfl | hx
    · omega
    · have := ih hys hx
      omega

/-- The last item of a consecutively indexed list carries the largest index. -/
lemma IndexedFrom.index_le_last {a : ℤ} {xs : List QItem} (h : IndexedFrom a xs)
    {last x : QItem} (hlast : xs.getLast? = some last) (hx : x ∈ xs) :
    x.index ≤ last.index := by
  obtain ⟨init, rfl⟩ := List.getLast?_eq_some_iff.mp hlast
  have hidx := (indexedFrom_append.mp h).2.1
  have hmem := h.index_mem hx
  simp only [List.length_append, List.length_cons, List.length_nil] at hmem
  omega

/-- The queue holds the messages `held`, oldest first. -/
structure Represents (q : Queue) (held : List QItem) : Prop where
  /-- `next` leads from `last_out` through all items, newest first, to `first_out`. -/
  chain : ∃ path, Path q.heap q.lastOut path none ∧ path.map Prod.snd = held.reverse ∧
    q.firstOut = path.getLast?.map Prod.fst ∧ path.length ≤ q.heap.top
  /-- The held messages carry the last indexes given out. -/
  indexed : IndexedFrom (q.lastIndex - held.length) held

lemma represents_queueCreate : Represents queueCreate [] where
  chain := ⟨[], .nil none, rfl, rfl, Nat.le_refl _⟩
  indexed := trivial

/-- What a represented queue's two ends point to, when it holds anything. -/
lemma Represents.ends {q : Queue} {x : QItem} {rest : List QItem}
    (h : Represents q (x :: rest)) :
    ∃ a, q.firstOut = some a ∧ q.heap.cell a = some ⟨x, none⟩ := by
  obtain ⟨path, hpath, hvals, hfirst, -⟩ := h.chain
  rcases List.eq_nil_or_concat path with rfl | ⟨init, last, rfl⟩
  · simp at hvals
  · have hlast : last.2 = x := by
      simp only [List.concat_eq_append, List.map_append, List.map_cons, List.map_nil,
        List.reverse_cons] at hvals
      exact (List.append_inj' hvals rfl).2 |> List.head_eq_of_cons_eq
    rw [List.concat_eq_append] at hpath hfirst
    refine ⟨last.1, by simpa using hfirst, ?_⟩
    rw [hpath.snoc_inv, hlast]

lemma Represents.firstOut_nil {q : Queue} (h : Represents q []) :
    q.firstOut = none ∧ q.lastOut = none := by
  obtain ⟨path, hpath, hvals, hfirst, -⟩ := h.chain
  have hnil : path = [] := by simpa using hvals
  subst hnil
  exact ⟨by simpa using hfirst, hpath.nil_inv⟩

/-! ## One specification lemma for each operation -/

/-- `queue_put` adds the message at the end of what the queue holds. -/
lemma queuePut_spec {q : Queue} {held : List QItem} (h : Represents q held) (now : ℤ)
    (msg : CString) :
    Represents (queuePut q now msg).1 (held ++ [(queuePut q now msg).2]) := by
  obtain ⟨path, hpath, hvals, hfirst, hlen⟩ := h.chain
  constructor
  · refine ⟨(q.heap.top, (queuePut q now msg).2) :: path, hpath.alloc_cons _, ?_, ?_, ?_⟩
    · simp [hvals]
    · -- the new item is `first_out` exactly when it is alone
      rcases List.eq_nil_or_concat path with rfl | ⟨init, last, rfl⟩
      · simp [queuePut, hpath.nil_inv]
      · have hne : q.lastOut ≠ none := by
          rw [Ne, hpath.start_eq_none_iff]
          simp
        simp only [queuePut, hne, if_false, hfirst]
        simp [List.getLast?_cons]
    · simp only [queuePut, Heap.alloc_top, List.length_cons]
      omega
  · rw [indexedFrom_append]
    have hidx := h.indexed
    simp only [queuePut, List.length_append, List.length_cons, List.length_nil, IndexedFrom,
      and_true]
    push_cast
    constructor
    · rw [show q.lastIndex + 1 - ((held.length : ℤ) + 1) = q.lastIndex - held.length by omega]
      exact hidx
    · omega

/-- `queue_get` returns the oldest message and leaves the queue empty. -/
lemma queueGet_spec {q : Queue} {held : List QItem} (h : Represents q held) :
    ∃ q', queueGet q = some (q', held.head?) ∧ Represents q' [] ∧
      q'.lastIndex = q.lastIndex := by
  cases held with
  | nil =>
    refine ⟨q, ?_, h, rfl⟩
    simp [queueGet, h.firstOut_nil.1]
  | cons x rest =>
    obtain ⟨a, hfirst, hcell⟩ := h.ends
    refine ⟨{ q with firstOut := none, lastOut := none, heap := q.heap.free a }, ?_, ?_, rfl⟩
    · simp [queueGet, hfirst, hcell]
    · exact ⟨⟨[], .nil none, rfl, rfl, Nat.zero_le _⟩, trivial⟩

/-- The message `queue_pick` looks for among the ones held, oldest first. -/
def pickHeld (held : List QItem) (id : ℤ) : Option QItem :=
  if id < 0 then held.head? else held.find? fun x => id ≤ x.index

/-- The walk of `queue_pick` ends on the oldest item that qualifies. -/
lemma foldl_nearest (id : ℤ) (newest : QItem) (held : List QItem) :
    held.reverse.foldl (fun nearest pt => if id ≤ pt.index then pt else nearest) newest =
      (held.find? fun x => id ≤ x.index).getD newest := by
  induction held with
  | nil => rfl
  | cons x held ih =>
    rw [List.reverse_cons, List.foldl_append, ih, List.foldl_cons, List.foldl_nil,
      List.find?_cons]
    by_cases hx : id ≤ x.index <;> simp [hx]

lemma queuePick_spec {q : Queue} {held : List QItem} (h : Represents q held) (id : ℤ) :
    queuePick q id = some (pickHeld held id) := by
  cases held with
  | nil => simp [queuePick, h.firstOut_nil.1, pickHeld]
  | cons x rest =>
    obtain ⟨a, hfirst, hcell⟩ := h.ends
    by_cases hid : id < 0
    · simp [queuePick, hfirst, hcell, hid, pickHeld]
    · obtain ⟨path, hpath, hvals, -, hlen⟩ := h.chain
      -- the newest item heads the chain, and no held index exceeds its own
      cases path with
      | nil => simp at hvals
      | cons y path =>
        obtain ⟨c, hlast, hc, hval, -⟩ := hpath.cons_inv
        have hfold := foldChain_eq
          (f := fun nearest pt => if id ≤ pt.index then pt else nearest) hpath hlen c.val
        rw [hvals, foldl_nearest] at hfold
        have hnewest : c.val ∈ x :: rest := by
          rw [← List.mem_reverse, ← hvals, hval]
          simp
        have hmax : ∀ z ∈ x :: rest, z.index ≤ c.val.index := by
          intro z hz
          refine h.indexed.index_le_last ?_ hz
          rw [← List.head?_reverse, ← hvals, hval]
          rfl
        simp only [queuePick, hfirst, hid, if_false, hlast, Option.bind_some, hc, pickHeld]
        split
        · next hlt =>
          symm
          rw [Option.some.injEq, List.find?_eq_none]
          intro z hz
          have := hmax z hz
          simp only [decide_eq_true_eq]
          omega
        · next hge =>
          rw [← hlast, hfold]
          obtain ⟨z, hz⟩ : ∃ z, (x :: rest).find? (fun x => id ≤ x.index) = some z := by
            rw [← Option.isSome_iff_exists, List.find?_isSome]
            exact ⟨c.val, hnewest, by simp only [decide_eq_true_eq]; omega⟩
          simp [hz]

/-- `queue_expire` empties a queue whose oldest message is stale and leaves any other alone. -/
lemma queueExpire_spec {q : Queue} {held : List QItem} (h : Represents q held) (now : ℤ) :
    ∃ q', queueExpire q now = some q' ∧ q'.lastIndex = q.lastIndex ∧
      Represents q' (if ∃ x ∈ held.head?, x.expire ≤ now then [] else held) := by
  cases held with
  | nil =>
    refine ⟨q, ?_, rfl, by simpa using h⟩
    unfold queueExpire queueExpireLoop
    simp [h.firstOut_nil.1]
  | cons x rest =>
    obtain ⟨a, hfirst, hcell⟩ := h.ends
    by_cases hx : x.expire ≤ now
    · obtain ⟨q', hget, hq', hidx⟩ := queueGet_spec h
      refine ⟨q', ?_, hidx, by simpa [hx] using hq'⟩
      -- one round: the get it makes leaves nothing behind
      obtain ⟨n, hn⟩ : ∃ n, q.heap.top = n + 1 := by
        obtain ⟨path, -, hvals, -, hlen⟩ := h.chain
        have : path.length = (x :: rest).length := by
          have hreverse : (x :: rest).reverse.length = (x :: rest).length := List.length_reverse
          rw [← hreverse, ← hvals, List.length_map]
        simp only [List.length_cons] at this
        exact ⟨q.heap.top - 1, by omega⟩
      unfold queueExpire queueExpireLoop
      simp only [hfirst, hcell, hn, hget, Option.bind_some, if_neg (not_lt.mpr hx)]
      unfold queueExpireLoop
      simp [hq'.firstOut_nil.1]
    · refine ⟨q, ?_, rfl, by simpa [hx] using h⟩
      unfold queueExpire queueExpireLoop
      simp [hfirst, hcell, not_le.mp hx]

end SerialChrono
