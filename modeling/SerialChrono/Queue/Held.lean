import SerialChrono.Queue.Browser

/-!
# Picking and expiring over a run (`queue_pick`, `queue_expire`)

The queue of this file has been through any sequence of the four operations, and the messages
it holds are the ones `next` leads to from `last_out` (`Queue.items`).  Two things stay true of
them: they carry consecutive indexes, which is what `queue_pick` relies on (`queuePick_reached`),
and they expire in the order they were put in, as long as the clock does not go back.

`queue_expire` looks at the oldest message only and removes through `queue_get`, which drops
the whole queue.  It therefore removes exactly the stale messages unless the oldest one is
stale and a younger one is not (`queueExpire_exact_iff`).
-/

namespace SerialChrono

open CText LinkedChain PartialRun

/-- A call of one of the queue's operations. -/
inductive QueueOp
  | put (now : ℤ) (msg : CString)
  | get
  | pick (id : ℤ)
  | expire (now : ℤ)

/-- One call, and the queue after it. -/
def queueOpStep (q : Queue) : QueueOp → Option Queue
  | .put now msg => some (queuePut q now msg).1
  | .get => (queueGet q).map Prod.fst
  | .pick id => (queuePick q id).map fun _ => q
  | .expire now => queueExpire q now

/-- The clock values at which messages are put in. -/
def putTimes (ops : List QueueOp) : List ℤ :=
  ops.filterMap fun op =>
    match op with
    | .put now _ => some now
    | _ => none

/-! ## The invariant -/

/-- What a call does to the messages held: it drops them all, leaves them, or adds one. -/
lemma Represents.step {q : Queue} {held : List QItem} (h : Represents q held) (op : QueueOp) :
    ∃ q' held', queueOpStep q op = some q' ∧ Represents q' held' ∧
      (held' = [] ∨ held' = held ∨
        ∃ now msg, op = .put now msg ∧ held' = held ++ [(queuePut q now msg).2]) := by
  cases op with
  | put now msg =>
    exact ⟨_, _, rfl, queuePut_spec h now msg, Or.inr (Or.inr ⟨now, msg, rfl, rfl⟩)⟩
  | get =>
    obtain ⟨q', hget, hq', -⟩ := queueGet_spec h
    exact ⟨q', [], by simp [queueOpStep, hget], hq', Or.inl rfl⟩
  | pick id =>
    exact ⟨q, held, by simp [queueOpStep, queuePick_spec h], h, Or.inr (Or.inl rfl)⟩
  | expire now =>
    obtain ⟨q', hexpire, -, hq'⟩ := queueExpire_spec h now
    refine ⟨q', _, hexpire, hq', ?_⟩
    split
    · exact Or.inl rfl
    · exact Or.inr (Or.inl rfl)

/-- The messages held have been put in. -/
lemma messages_run {P : CString → Prop} {q : Queue} {held : List QItem} (h : Represents q held)
    (hheld : ∀ x ∈ held, P x.msg) {ops : List QueueOp}
    (hops : ∀ now msg, .put now msg ∈ ops → P msg) :
    ∃ q' held', PartialRun.run queueOpStep q ops = some q' ∧ Represents q' held' ∧
      ∀ x ∈ held', P x.msg := by
  induction ops generalizing q held with
  | nil => exact ⟨q, held, rfl, h, hheld⟩
  | cons op ops ih =>
    obtain ⟨q₁, held₁, hstep, h₁, hcases⟩ := h.step op
    have hheld₁ : ∀ x ∈ held₁, P x.msg := by
      rcases hcases with rfl | rfl | ⟨now, msg, rfl, rfl⟩
      · simp
      · exact hheld
      · intro x hx
        rcases List.mem_append.mp hx with hx | hx
        · exact hheld x hx
        · rw [List.mem_singleton.mp hx]
          exact hops now msg List.mem_cons_self
    obtain ⟨q', held', hrun, hq'⟩ := ih h₁ hheld₁ fun now msg hmem =>
      hops now msg (List.mem_cons_of_mem op hmem)
    exact ⟨q', held', by rw [run_cons, hstep, Option.bind_some, hrun], hq'⟩

/-- The queue holds `held`, messages put in at some of the times `times`, in that order. -/
structure HeldFrom (q : Queue) (times : List ℤ) (held : List QItem) : Prop where
  represents : Represents q held
  expiring : (held.map QItem.expire).Sublist (times.map fun now => 15000 + now)

lemma heldFrom_queueCreate : HeldFrom queueCreate [] [] :=
  ⟨represents_queueCreate, .slnil⟩

/-- Each call keeps the invariant. -/
lemma HeldFrom.step {q : Queue} {times : List ℤ} {held : List QItem}
    (h : HeldFrom q times held) (op : QueueOp) :
    ∃ q' held', queueOpStep q op = some q' ∧ HeldFrom q' (times ++ putTimes [op]) held' := by
  obtain ⟨q', held', hstep, hq', hcases⟩ := h.represents.step op
  refine ⟨q', held', hstep, hq', ?_⟩
  rw [List.map_append]
  rcases hcases with rfl | rfl | ⟨now, msg, rfl, rfl⟩
  · exact List.nil_sublist _
  · exact h.expiring.trans (List.sublist_append_left _ _)
  · rw [List.map_append]
    exact h.expiring.append (.refl _)

/-- Every run is defined, and the invariant holds at its end. -/
lemma HeldFrom.run {q : Queue} {times : List ℤ} {held : List QItem}
    (h : HeldFrom q times held) (ops : List QueueOp) :
    ∃ q' held', run queueOpStep q ops = some q' ∧
      HeldFrom q' (times ++ putTimes ops) held' := by
  induction ops generalizing q times held with
  | nil => exact ⟨q, held, rfl, by simpa [putTimes] using h⟩
  | cons op ops ih =>
    obtain ⟨q₁, held₁, hstep, h₁⟩ := h.step op
    obtain ⟨q₂, held₂, hrun, h₂⟩ := ih h₁
    refine ⟨q₂, held₂, ?_, ?_⟩
    · rw [run_cons, hstep]
      exact hrun
    · have htimes : putTimes (op :: ops) = putTimes [op] ++ putTimes ops := by
        simp only [putTimes, ← List.filterMap_append, List.singleton_append]
      rw [htimes, ← List.append_assoc]
      exact h₂

/-- The queue any sequence of calls on a new queue leads to. -/
lemma heldFrom_run (ops : List QueueOp) :
    ∃ q held, PartialRun.run queueOpStep queueCreate ops = some q ∧
      HeldFrom q (putTimes ops) held := by
  simpa using heldFrom_queueCreate.run ops

/-! ## `queue_pick` -/

/-- `result` is the item of `held` with the smallest index among those that `wanted` selects,
and NULL if it selects none. -/
def IsSmallest (held : List QItem) (wanted : QItem → Prop) : Option QItem → Prop
  | some x => x ∈ held ∧ wanted x ∧ ∀ y ∈ held, wanted y → x.index ≤ y.index
  | none => ∀ y ∈ held, ¬ wanted y

/-- The oldest of consecutively indexed items has the smallest index. -/
lemma isSmallest_head? {a : ℤ} {held : List QItem} (h : IndexedFrom a held) :
    IsSmallest held (fun _ => True) held.head? := by
  cases held with
  | nil => simp [IsSmallest]
  | cons x rest =>
    refine ⟨List.mem_cons_self, trivial, fun y hy _ => ?_⟩
    have := (h.index_mem hy).1
    rw [h.1]
    exact this

/-- The first item whose index is large enough is the smallest such item. -/
lemma isSmallest_find? {a : ℤ} {held : List QItem} (h : IndexedFrom a held) {id : ℤ}
    (hid : 0 ≤ id) :
    IsSmallest held (fun x => id ≤ x.index) (held.find? fun x => id ≤ x.index) := by
  have hpick : pickHeld held id = held.find? fun x => id ≤ x.index := by
    rw [pickHeld, if_neg (not_lt.mpr hid)]
  cases hfind : held.find? fun x => id ≤ x.index with
  | none => simpa [IsSmallest] using hfind
  | some x =>
    obtain ⟨hmem, hqualifies, hsmallest⟩ := pickHeld_eq_some h (hpick.trans hfind)
    exact ⟨hmem, hqualifies hid, hsmallest⟩

/-- **What `queue_pick` finds.** On a queue reached by any sequence of calls it returns the
oldest message held for a negative `id`, the one with the smallest index not below `id`
otherwise, and NULL if there is none; the queue is the same afterwards. -/
theorem queuePick_reached (ops : List QueueOp) (id : ℤ) :
    ∃ q held result, run queueOpStep queueCreate ops = some q ∧ q.items = some held ∧
      queuePick q id = some result ∧ queueOpStep q (.pick id) = some q ∧
      (id < 0 → IsSmallest held (fun _ => True) result) ∧
      (0 ≤ id → IsSmallest held (fun x => id ≤ x.index) result) := by
  obtain ⟨q, held, hrun, h⟩ := heldFrom_run ops
  have hpick := queuePick_spec h.represents id
  refine ⟨q, held, pickHeld held id, hrun, h.represents.items_eq, hpick, ?_, fun hneg => ?_,
    fun hid => ?_⟩
  · simp [queueOpStep, hpick]
  · rw [pickHeld, if_pos hneg]
    exact isSmallest_head? h.represents.indexed
  · rw [pickHeld, if_neg (not_lt.mpr hid)]
    exact isSmallest_find? h.represents.indexed hid

/-! ## `queue_expire` -/

/-- `queue_expire` at time `t` terminates and keeps exactly the messages still to expire, in
their order. -/
def ExpiresExactly (q : Queue) (t : ℤ) : Prop :=
  ∃ held q', q.items = some held ∧ queueExpire q t = some q' ∧
    q'.items = some (held.filter fun x => t < x.expire)

/-- At time `t`, if the oldest message is stale then so are all others. -/
def StaleTogether (q : Queue) (t : ℤ) : Prop :=
  ∀ held ∈ q.items, ∀ oldest ∈ held.head?, oldest.expire ≤ t → ∀ x ∈ held, x.expire ≤ t

/-- When the oldest message is fresh and expiry times do not decrease, all are. -/
lemma filter_fresh_eq_self {held : List QItem} {t : ℤ}
    (hsorted : (held.map QItem.expire).Pairwise (· ≤ ·))
    (hfresh : ∀ oldest ∈ held.head?, t < oldest.expire) :
    held.filter (fun x => t < x.expire) = held := by
  cases held with
  | nil => rfl
  | cons oldest rest =>
    rw [List.filter_eq_self]
    have hlt := hfresh oldest rfl
    intro x hx
    rcases List.mem_cons.mp hx with rfl | hx
    · simpa using hlt
    · have hle := List.rel_of_pairwise_cons hsorted (List.mem_map_of_mem hx)
      simp only [decide_eq_true_eq]
      omega

/-- **When `queue_expire` removes exactly the expired messages.** On a queue reached by any
sequence of calls in which the clock does not go back between insertions, it does so at time
`t` if and only if the oldest message is fresh at `t` or all messages are stale. -/
theorem queueExpire_exact_iff (ops : List QueueOp) (hclock : (putTimes ops).Pairwise (· ≤ ·))
    (t : ℤ) :
    ∃ q, run queueOpStep queueCreate ops = some q ∧
      (ExpiresExactly q t ↔ StaleTogether q t) := by
  obtain ⟨q, held, hrun, h⟩ := heldFrom_run ops
  obtain ⟨q', hexpire, -, hq'⟩ := queueExpire_spec h.represents t
  have hsorted : (held.map QItem.expire).Pairwise (· ≤ ·) := by
    refine List.Pairwise.sublist h.expiring ?_
    rw [List.pairwise_map]
    exact hclock.imp fun hle => by omega
  refine ⟨q, hrun, ?_⟩
  have hexact : ExpiresExactly q t ↔
      (if ∃ x ∈ held.head?, x.expire ≤ t then [] else held) =
        held.filter fun x => t < x.expire := by
    simp [ExpiresExactly, h.represents.items_eq, hexpire, hq'.items_eq]
  have htogether : StaleTogether q t ↔
      ∀ oldest ∈ held.head?, oldest.expire ≤ t → ∀ x ∈ held, x.expire ≤ t := by
    simp [StaleTogether, h.represents.items_eq]
  rw [hexact, htogether]
  by_cases hstale : ∃ x ∈ held.head?, x.expire ≤ t
  · -- the whole queue is dropped, which is right if nothing in it is fresh
    obtain ⟨oldest, hhead, hle⟩ := hstale
    rw [if_pos ⟨oldest, hhead, hle⟩, eq_comm, List.filter_eq_nil_iff]
    constructor
    · intro hnone x _ _ y hy
      simpa using hnone y hy
    · intro hall y hy
      simpa using hall oldest hhead hle y hy
  · have hfresh : ∀ oldest ∈ held.head?, t < oldest.expire := fun oldest ho =>
      lt_of_not_ge fun hle => hstale ⟨oldest, ho, hle⟩
    rw [if_neg hstale, filter_fresh_eq_self hsorted hfresh]
    refine iff_of_true rfl fun oldest ho hle => ?_
    exact absurd (hfresh oldest ho) (not_lt.mpr hle)

/-- Two messages put ten seconds apart, at a time when both are stale. -/
theorem queueExpire_exact_iff_two_puts :
    ∃ q, run queueOpStep queueCreate [.put 0 "start 0".toList, .put 10000 "stop 9".toList] =
      some q ∧ (ExpiresExactly q 25000 ↔ StaleTogether q 25000) :=
  queueExpire_exact_iff _ (by decide) 25000

/-- A message put ten seconds after another is dropped with it, ten seconds early. -/
theorem queueExpire_drops_fresh :
    ¬ ∀ (ops : List QueueOp), (putTimes ops).Pairwise (· ≤ ·) → ∀ t, ∃ q,
      run queueOpStep queueCreate ops = some q ∧ ExpiresExactly q t := by
  intro h
  obtain ⟨q, hrun, held, q', hitems, hexpire, hleft⟩ :=
    h [.put 0 "start 0".toList, .put 10000 "stop 9".toList] (by decide) 16000
  cases hrun
  cases hitems
  cases hexpire
  cases hleft

end SerialChrono
