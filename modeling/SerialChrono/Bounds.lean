import SerialChrono.MainLoop

/-!
# Where a datagram is stored (`main.c`, `sc_tools.c`)

Main receives a datagram into `buffer`, of 500 bytes, and writes a terminator after it;
`explode` stores the tokens into `res`, of 32 entries, and counts them in `*nelem`.  Here the
stores themselves are kept: the index of the terminator, and each `res[n]=token` with its index.

Both limits are missed by one.  `recvfrom` may fill the whole buffer, and the terminator then
goes to `buffer[500]`; the loop of `explode` gives up only after a count above 32, so the token
after the 32nd blank goes to `res[32]`.  `staysInBounds_iff` says which datagrams are safe.
-/

namespace SerialChrono

open CText

/-! ## The stores -/

/-- The number of bytes `recvfrom` puts into `buffer`: the rest of a longer datagram is lost. -/
def recvLength (datagram : List Char) : ℕ := min 500 datagram.length

/-- The text main tokenizes. -/
def receivedLine (datagram : List Char) : CString := cstr (datagram.take 500)

/-- `res[index]=token`. -/
structure TokenStore where
  index : ℕ
  token : CString
  deriving DecidableEq, Repr

/-- The loop of `explode` with its stores, `cur` the token being read, and the `*nelem` it
leaves. -/
def explodeStores (separator : Char) : (rest cur : CString) → (nelem : ℕ) → List TokenStore × ℕ
  | [], cur, nelem => ([⟨nelem, cur⟩], nelem + 1)
  | c :: rest, cur, nelem =>
    if c ≠ separator then explodeStores separator rest (cur ++ [c]) nelem
    else if 32 < nelem + 1 then ([⟨nelem, cur⟩], nelem + 1)
    else
      let r := explodeStores separator rest [] (nelem + 1)
      (⟨nelem, cur⟩ :: r.1, r.2)

/-- The receiving and the tokenizing of a datagram stay within `buffer` and `res`. -/
structure StaysInBounds (datagram : List Char) : Prop where
  terminator : recvLength datagram < 500
  stores : ∀ store ∈ (explodeStores ' ' (receivedLine datagram) [] 0).1, store.index < 32
  nelem : (explodeStores ' ' (receivedLine datagram) [] 0).2 ≤ 32

/-! ## What is stored -/

lemma length_splitOn {α : Type*} [DecidableEq α] (sep : α) (xs : List α) :
    (xs.splitOn sep).length = xs.count sep + 1 := by
  induction xs with
  | nil => simp
  | cons x xs ih =>
    rw [List.splitOn_cons_eq_if_modifyHead, List.count_cons]
    by_cases hx : x = sep
    · simp [hx, ih]
    · simp [hx, ih]

/-- The loop stores the tokens it reads one after the other. -/
theorem explodeStores_tokens (separator : Char) (rest cur : CString) (res : Tokens) :
    explodeLoop separator rest cur res =
      res ++ (explodeStores separator rest cur res.length).1.map TokenStore.token := by
  induction rest generalizing cur res with
  | nil => rfl
  | cons c rest ih =>
    unfold explodeLoop explodeStores
    by_cases hc : c ≠ separator
    · rw [if_pos hc, if_pos hc]
      exact ih (cur ++ [c]) res
    · rw [if_neg hc, if_neg hc]
      split_ifs
      · rfl
      · rw [ih [] (res ++ [cur]), List.length_append, List.length_singleton, List.append_assoc]
        rfl

/-- The indexes it stores them at, and the count it leaves: one for each separator and one for
the end of the line, but not beyond `res[32]`. -/
lemma explodeStores_indexes (separator : Char) (rest cur : CString) {nelem : ℕ}
    (hnelem : nelem ≤ 32) :
    (explodeStores separator rest cur nelem).1.map TokenStore.index =
        List.range' nelem (min (rest.count separator + 1) (33 - nelem)) ∧
      (explodeStores separator rest cur nelem).2 =
        nelem + min (rest.count separator + 1) (33 - nelem) := by
  induction rest generalizing cur nelem with
  | nil =>
    have hone : min (([] : CString).count separator + 1) (33 - nelem) = 1 := by
      simp
      omega
    rw [hone]
    exact ⟨rfl, rfl⟩
  | cons c rest ih =>
    unfold explodeStores
    by_cases hc : c ≠ separator
    · rw [if_pos hc, List.count_cons_of_ne hc]
      exact ih (cur ++ [c]) hnelem
    · rw [not_not] at hc
      subst hc
      rw [if_neg (not_not.mpr rfl), List.count_cons_self]
      split_ifs with hfull
      · have hone : min (rest.count c + 1 + 1) (33 - nelem) = 1 := by omega
        rw [hone]
        exact ⟨rfl, rfl⟩
      · have hroom : nelem + 1 ≤ 32 := by omega
        obtain ⟨hindexes, hcount⟩ := ih [] hroom
        have hnext : min (rest.count c + 1 + 1) (33 - nelem) =
            min (rest.count c + 1) (33 - (nelem + 1)) + 1 := by omega
        rw [hnext, List.range'_succ]
        refine ⟨?_, ?_⟩
        · simp only [List.map_cons, hindexes]
        · simp only [hcount]
          omega

/-- The stores stay within `res` exactly if the line has at most 31 blanks. -/
lemma stores_inBounds_iff (line : CString) :
    (∀ store ∈ (explodeStores ' ' line [] 0).1, store.index < 32) ↔ line.count ' ' ≤ 31 := by
  obtain ⟨hindexes, -⟩ := explodeStores_indexes ' ' line [] (Nat.zero_le 32)
  constructor
  · intro hstores
    by_contra hblanks
    -- the token after the 32nd blank
    have hlast : 32 ∈ (explodeStores ' ' line [] 0).1.map TokenStore.index := by
      rw [hindexes, List.mem_range'_1]
      omega
    obtain ⟨store, hstore, hindex⟩ := List.mem_map.mp hlast
    exact absurd (hstores store hstore) (by omega)
  · intro hblanks store hstore
    have hmem := List.mem_map_of_mem (f := TokenStore.index) hstore
    rw [hindexes, List.mem_range'_1] at hmem
    omega

lemma nelem_le_iff (line : CString) :
    (explodeStores ' ' line [] 0).2 ≤ 32 ↔ line.count ' ' ≤ 31 := by
  obtain ⟨-, hcount⟩ := explodeStores_indexes ' ' line [] (Nat.zero_le 32)
  rw [hcount]
  omega

lemma terminator_inBounds_iff (datagram : List Char) :
    recvLength datagram < 500 ↔ datagram.length < 500 := by
  unfold recvLength
  omega

lemma receivedLine_eq {datagram : List Char} (h : datagram.length < 500) :
    receivedLine datagram = cstr datagram := by
  rw [receivedLine, List.take_of_length_le (by omega)]

/-- **When a datagram stays in bounds.** Exactly if it is shorter than the buffer, and its text
has at most 31 blanks. -/
theorem staysInBounds_iff (datagram : List Char) :
    StaysInBounds datagram ↔ datagram.length < 500 ∧ (cstr datagram).count ' ' ≤ 31 := by
  constructor
  · intro h
    have hshort := (terminator_inBounds_iff datagram).mp h.terminator
    have hblanks := (stores_inBounds_iff _).mp h.stores
    rw [receivedLine_eq hshort] at hblanks
    exact ⟨hshort, hblanks⟩
  · rintro ⟨hshort, hblanks⟩
    rw [← receivedLine_eq hshort] at hblanks
    exact ⟨(terminator_inBounds_iff datagram).mpr hshort, (stores_inBounds_iff _).mpr hblanks,
      (nelem_le_iff _).mpr hblanks⟩

/-- A datagram of 500 bytes puts the terminator past the end of `buffer`. -/
theorem terminator_out_of_bounds : ¬ ∀ datagram : List Char, StaysInBounds datagram := by
  intro h
  have hlong := (h (List.replicate 500 'x')).terminator
  rw [recvLength, List.length_replicate] at hlong
  exact absurd hlong (lt_irrefl 500)

/-- The command loop, where the stores out of bounds are undefined, gets to the tokens exactly of
the datagrams that stay in bounds. -/
theorem explode_receive_isSome_iff (datagram : List Char) :
    ((receive datagram).bind fun buffer => explode buffer ' ').isSome = true ↔
      datagram.length < 500 ∧ (cstr datagram).count ' ' ≤ 31 := by
  unfold receive
  by_cases hshort : datagram.length < 500
  · rw [if_pos hshort, Option.bind_some, explode_eq, length_splitOn]
    by_cases hblanks : (cstr datagram).count ' ' ≤ 31
    · rw [if_pos (by omega)]
      exact iff_of_true rfl ⟨hshort, hblanks⟩
    · rw [if_neg (by omega)]
      exact iff_of_false Bool.false_ne_true fun h => hblanks h.2
  · rw [if_neg hshort]
    exact iff_of_false Bool.false_ne_true fun h => hshort h.1

end SerialChrono
