import SerialChrono.MainLoop
import SerialChrono.Library.CBuffer
import Mathlib.Order.Bounds.Basic

/-!
# Searching in memory (`stripos`)

`stripos` moves two pointers side by side, one through the haystack from the place under test and
one through the needle, and both loops take the end of a string from the comparison that fails
there.  The loops are kept here with the arrays they read, each a string and its terminator: a
read beyond has no result, and `toupper` has none outside ASCII.

`striposInMemory_eq` says that they compute the search of `Tools`, as an `int`, and so never read
past a terminator.  `stripos_search` says what the search is for.  Its number is the difference of
two pointers plus one, and it is only lost where an `int` does not hold it (`stripos_too_far`);
main searches in 500 bytes (`exit_test_in_memory`).
-/

namespace SerialChrono

open CText CBuffer

/-! ## The loops -/

variable {n m : ℕ}

/-- `toupper` of a `char`.  Outside ASCII the argument is negative. -/
def toupper (c : Char) : Option Char := if c.toNat < 0x80 then some c.toUpper else none

/-- The inner loop, at most `fuel` times round: where it leaves `ptr3`. -/
def matchLoop (haystack : Buffer n) (needle : Buffer m) : (fuel ptr2 ptr3 : ℕ) → Option ℕ
  | 0, _, _ => none
  | fuel + 1, ptr2, ptr3 => do
    let c3 ← needle.get ptr3
    if c3 = '\x00' then return ptr3
    let c2 ← haystack.get ptr2
    if (← toupper c2) = (← toupper c3) then matchLoop haystack needle fuel (ptr2 + 1) (ptr3 + 1)
    else return ptr3

/-- The outer loop, at most `fuel` times round.  The difference of the pointers is returned as an
`int`. -/
def striposLoop (haystack : Buffer n) (needle : Buffer m) : (fuel ptr1 : ℕ) → Option ℤ
  | 0, _ => none
  | fuel + 1, ptr1 => do
    if (← haystack.get ptr1) = '\x00' then return -1
    let ptr3 ← matchLoop haystack needle m ptr1 0
    if (← needle.get ptr3) = '\x00' then return toInt32 (ptr1 + 1)
    else striposLoop haystack needle fuel (ptr1 + 1)

/-- `stripos`, with its arrays. -/
def striposInMemory : (haystack needle : Option CString) → Option ℤ
  | some haystack, some needle =>
    striposLoop (.ofText haystack) (.ofText needle) (haystack.length + 1) 0
  | _, _ => some (-1)

/-! ## What it is for -/

/-- The characters of an ASCII string, its terminator left out. -/
def IsAscii (text : CString) : Prop := ∀ c ∈ text, c ≠ '\x00' ∧ c.toNat < 0x80

lemma isAscii_of_all {text : CString}
    (h : (text.all fun c => decide (c ≠ '\x00' ∧ c.toNat < 0x80)) = true) : IsAscii text :=
  fun c hc => of_decide_eq_true (List.all_eq_true.mp h c hc)

/-- At this offset of the haystack the needle begins, whatever the letter case. -/
def OccursAt (haystack needle : CString) (i : ℕ) : Prop :=
  toUpper needle <+: toUpper (haystack.drop i)

/-- The result of a search that ignores letter case: one plus the smallest offset of the needle,
or -1. -/
structure FindsFirst (haystack needle : CString) (res : ℤ) : Prop where
  found : haystack ≠ [] → ∀ i, IsLeast {i | OccursAt haystack needle i} i → res = i + 1
  nowhere : (∀ i, ¬ OccursAt haystack needle i) → res = -1
  /-- Not even an empty needle is found in an empty haystack. -/
  empty : haystack = [] → res = -1

instance (haystack needle : CString) (i : ℕ) : Decidable (OccursAt haystack needle i) :=
  inferInstanceAs (Decidable (_ <+: _))

lemma occursAt_zero {haystack needle : CString} :
    OccursAt haystack needle 0 ↔ matchesAt haystack needle = true :=
  (matchesAt_iff haystack needle).symm

/-- The search of `Tools`, `offset` characters into the haystack. -/
lemma striposFrom_eq {haystack needle : CString} (h : haystack ≠ [] ∨ needle ≠ []) {i : ℕ}
    (hi : IsLeast {i | OccursAt haystack needle i} i) (offset : ℕ) :
    striposFrom needle haystack offset = offset + i + 1 := by
  obtain ⟨hoccurs, hleast⟩ := hi
  induction haystack generalizing i offset with
  | nil =>
    -- a needle of one character or more is nowhere in an empty haystack
    have hneedle := h.resolve_left (not_not.mpr rfl)
    have hempty : toUpper needle <+: [] := by
      rw [show ([] : CString) = toUpper ([].drop i) by rw [List.drop_nil]; rfl]
      exact hoccurs
    exact absurd (List.map_eq_nil_iff.mp (List.prefix_nil.mp hempty)) hneedle
  | cons c cs ih =>
    rw [striposFrom]
    by_cases hm : matchesAt (c :: cs) needle = true
    · rw [if_pos hm]
      obtain rfl : i = 0 := Nat.le_zero.mp (hleast (occursAt_zero.mpr hm))
      simp
    · rw [if_neg hm]
      have hneedle : needle ≠ [] := by
        rintro rfl
        exact hm rfl
      obtain ⟨i, rfl⟩ : ∃ j, i = j + 1 := by
        refine Nat.exists_eq_succ_of_ne_zero ?_
        rintro rfl
        exact hm (occursAt_zero.mp hoccurs)
      have hfirst : i ∈ lowerBounds {j | OccursAt cs needle j} := fun j hj =>
        Nat.le_of_succ_le_succ (hleast (show j + 1 ∈ {j | OccursAt (c :: cs) needle j} from hj))
      rw [ih (Or.inr hneedle) (offset + 1) hoccurs hfirst]
      push_cast
      omega

lemma striposFrom_eq_neg_one {haystack needle : CString}
    (h : ∀ i, ¬ OccursAt haystack needle i) (offset : ℕ) :
    striposFrom needle haystack offset = -1 := by
  induction haystack generalizing offset with
  | nil => rfl
  | cons c cs ih =>
    rw [striposFrom, if_neg fun hm => h 0 (occursAt_zero.mpr hm)]
    exact ih (fun i hi => h (i + 1) hi) (offset + 1)

/-- The search of `Tools` is a search that ignores letter case. -/
lemma stripos_findsFirst (haystack needle : CString) :
    FindsFirst haystack needle (stripos haystack needle) where
  found hne i hi := by
    rw [stripos, striposFrom_eq (Or.inl hne) hi 0]
    simp
  nowhere h := striposFrom_eq_neg_one h 0
  empty h := by
    rw [h]
    rfl

lemma striposFrom_le (haystack needle : CString) (offset : ℕ) :
    -1 ≤ striposFrom needle haystack offset ∧
      striposFrom needle haystack offset ≤ offset + haystack.length := by
  induction haystack generalizing offset with
  | nil =>
    rw [striposFrom, List.length_nil]
    omega
  | cons c cs ih =>
    have hrest := ih (offset + 1)
    rw [striposFrom, List.length_cons]
    split_ifs
    · push_cast
      omega
    · push_cast at hrest ⊢
      omega

/-! ## The arrays -/

lemma toUpper_eq_nul {c : Char} (h : c.toUpper = '\x00') : c = '\x00' := by
  unfold Char.toUpper at h
  split_ifs at h with hc
  · have hval := congrArg (fun c : Char => c.val.toNat) h
    simp [UInt32.le_iff_toNat_le] at hval hc
    omega
  · exact h

lemma toupper_of_ascii {c : Char} (h : c.toNat < 0x80) : toupper c = some c.toUpper := if_pos h

/-- From any place on, the inner loop leaves `ptr3` at the terminator of the needle exactly if the
rest of the needle stands in the haystack; at the end of the haystack it does not go on. -/
lemma matchLoop_spec {haystack : Buffer n} {needle : Buffer m} {before done hs ns : CString}
    (hhaystack : haystack.bytes = before ++ (hs ++ ['\x00']))
    (hneedle : needle.bytes = done ++ (ns ++ ['\x00'])) (hhs : IsAscii hs) (hns : IsAscii ns)
    {fuel : ℕ} (hfuel : ns.length < fuel) :
    ∃ ptr3 c, matchLoop haystack needle fuel before.length done.length = some ptr3 ∧
      needle.get ptr3 = some c ∧ (c = '\x00' ↔ matchesAt hs ns = true) := by
  induction ns generalizing before done hs fuel with
  | nil =>
    obtain ⟨fuel, rfl⟩ := Nat.exists_eq_add_of_lt hfuel
    have hget : needle.get done.length = some '\x00' := Buffer.get_at hneedle
    refine ⟨done.length, '\x00', ?_, hget, iff_of_true rfl ?_⟩
    · simp [matchLoop, hget]
    · simp [matchesAt]
  | cons k ns ih =>
    obtain ⟨fuel, rfl⟩ : ∃ f, fuel = f + 1 := ⟨fuel - 1, by omega⟩
    rw [List.length_cons, Nat.add_lt_add_iff_right] at hfuel
    obtain ⟨⟨hk, hkAscii⟩, hns⟩ := List.forall_mem_cons.mp hns
    have hget3 : needle.get done.length = some k := Buffer.get_at hneedle
    cases hs with
    | nil =>
      -- the terminator of the haystack is no character of the needle
      have hget2 : haystack.get before.length = some '\x00' := Buffer.get_at hhaystack
      have hdiffer : ¬ '\x00' = k.toUpper := fun h => hk (toUpper_eq_nul h.symm)
      refine ⟨done.length, k, ?_, hget3, iff_of_false hk (by simp [matchesAt])⟩
      have hnul : toupper '\x00' = some '\x00' := rfl
      simp [matchLoop, hget3, hk, hget2, hnul, toupper_of_ascii hkAscii, hdiffer]
    | cons c hs =>
      obtain ⟨⟨-, hcAscii⟩, hhs⟩ := List.forall_mem_cons.mp hhs
      have hget2 : haystack.get before.length = some c := Buffer.get_at hhaystack
      by_cases hsame : c.toUpper = k.toUpper
      · rw [List.cons_append, List.append_cons] at hhaystack hneedle
        obtain ⟨ptr3, d, hloop, hget, hd⟩ := ih hhaystack hneedle hhs hns hfuel
        rw [List.length_append, List.length_append, List.length_singleton,
          List.length_singleton] at hloop
        refine ⟨ptr3, d, ?_, hget, ?_⟩
        · simp [matchLoop, hget3, hk, hget2, toupper_of_ascii hcAscii, toupper_of_ascii hkAscii,
            hsame, hloop]
        · simp [matchesAt, hsame, hd]
      · refine ⟨done.length, k, ?_, hget3, iff_of_false hk ?_⟩
        · simp [matchLoop, hget3, hk, hget2, toupper_of_ascii hcAscii, toupper_of_ascii hkAscii,
            hsame]
        · simp [matchesAt, hsame]

/-- From any place on, the outer loop is the search of `Tools`. -/
lemma striposLoop_spec {haystack : Buffer n} {needle : Buffer m} {before hs word : CString}
    (hhaystack : haystack.bytes = before ++ (hs ++ ['\x00']))
    (hneedle : needle.bytes = [] ++ (word ++ ['\x00'])) (hhs : IsAscii hs)
    (hword : IsAscii word) {fuel : ℕ} (hfuel : hs.length < fuel) :
    striposLoop haystack needle fuel before.length =
      some (toInt32 (striposFrom word hs before.length)) := by
  induction hs generalizing before fuel with
  | nil =>
    obtain ⟨fuel, rfl⟩ := Nat.exists_eq_add_of_lt hfuel
    have hget : haystack.get before.length = some '\x00' := Buffer.get_at hhaystack
    have hnowhere : toInt32 (striposFrom word [] before.length) = -1 := rfl
    rw [hnowhere]
    simp [striposLoop, hget]
  | cons c hs ih =>
    obtain ⟨fuel, rfl⟩ : ∃ f, fuel = f + 1 := ⟨fuel - 1, by omega⟩
    rw [List.length_cons, Nat.add_lt_add_iff_right] at hfuel
    have hc := (hhs c List.mem_cons_self).1
    have hget : haystack.get before.length = some c := Buffer.get_at hhaystack
    have hsize : word.length < m := by
      rw [← needle.size, hneedle, List.nil_append, List.length_append]
      exact Nat.lt_succ_self word.length
    obtain ⟨ptr3, d, hloop, hd, hmatch⟩ := matchLoop_spec hhaystack hneedle hhs hword hsize
    rw [List.length_nil] at hloop
    rw [striposFrom]
    by_cases hm : matchesAt (c :: hs) word = true
    · rw [if_pos hm]
      simp [striposLoop, hget, hc, hloop, hd, hmatch.mpr hm]
    · rw [if_neg hm]
      rw [List.cons_append, List.append_cons] at hhaystack
      have hrest := ih hhaystack (fun c hc => hhs c (List.mem_cons_of_mem _ hc)) hfuel
      rw [List.length_append, List.length_singleton] at hrest
      rw [← hrest]
      simp [striposLoop, hget, hc, hloop, hd, mt hmatch.mp hm]

/-- The loops compute the search of `Tools`, as an `int`, and read no further than the
terminators. -/
lemma striposInMemory_eq {haystack needle : CString} (hhaystack : IsAscii haystack)
    (hneedle : IsAscii needle) :
    striposInMemory (some haystack) (some needle) = some (toInt32 (stripos haystack needle)) := by
  have hbytes (text : CString) : (Buffer.ofText text).bytes = [] ++ (text ++ ['\x00']) := rfl
  exact striposLoop_spec (hbytes haystack) (hbytes needle) hhaystack hneedle
    (Nat.lt_succ_self haystack.length)

lemma toInt32_stripos {haystack : CString} (hshort : haystack.length < 2 ^ 31)
    (needle : CString) : toInt32 (stripos haystack needle) = stripos haystack needle := by
  obtain ⟨hlow, hhigh⟩ := striposFrom_le haystack needle 0
  rw [← stripos] at hlow hhigh
  exact toInt32_eq_self (by omega) (by omega)

/-! ## The search -/

/-- **`stripos` is a search that ignores letter case.** For every ASCII haystack and needle it reads
neither string past its terminator and returns, as an `int`, one plus the smallest offset of the
needle in a haystack that is not empty, and -1 if there is none; in a haystack of less than `2^31`
characters that is the number itself. -/
theorem stripos_search (haystack needle : CString) (hhaystack : IsAscii haystack)
    (hneedle : IsAscii needle) :
    ∃ number : ℤ, striposInMemory (some haystack) (some needle) = some (toInt32 number) ∧
      FindsFirst haystack needle number ∧
      (haystack.length < 2 ^ 31 → toInt32 number = number) :=
  ⟨stripos haystack needle, striposInMemory_eq hhaystack hneedle,
    stripos_findsFirst haystack needle, fun hshort => toInt32_stripos hshort needle⟩

/-- The needle begins twice, and the first time it is broken off. -/
theorem stripos_search_exexit :
    striposInMemory (some "exexIT".toList) (some "exit".toList) = some 3 := by
  have hhaystack : IsAscii "exexIT".toList := isAscii_of_all (by decide)
  have hneedle : IsAscii "exit".toList := isAscii_of_all (by decide)
  obtain ⟨number, hrun, hfirst, hfits⟩ :=
    stripos_search "exexIT".toList "exit".toList hhaystack hneedle
  have hleast : IsLeast {i | OccursAt "exexIT".toList "exit".toList i} 2 := by
    refine ⟨show OccursAt _ _ 2 by decide, fun i hi => ?_⟩
    by_contra hearly
    have hnone : ∀ j < 2, ¬ OccursAt "exexIT".toList "exit".toList j := by decide
    exact hnone i (not_le.mp hearly) hi
  rw [hrun, hfits (by decide), hfirst.found (by decide) 2 hleast]
  rfl

/-- The first offset of a letter behind others. -/
lemma isLeast_after_letters (k : ℕ) :
    IsLeast {i | OccursAt (List.replicate k 'a' ++ ['b']) ['b'] i} k := by
  constructor
  · show toUpper ['b'] <+: toUpper ((List.replicate k 'a' ++ ['b']).drop k)
    rw [List.drop_left' List.length_replicate]
  · intro i hi
    by_contra hearly
    obtain ⟨j, hj⟩ := Nat.exists_eq_add_of_lt (not_le.mp hearly)
    have hdrop : (List.replicate k 'a' ++ ['b']).drop i =
        'a' :: (List.replicate j 'a' ++ ['b']) := by
      rw [List.drop_append_of_le_length (by rw [List.length_replicate]; omega),
        List.drop_replicate, show k - i = j + 1 by omega, List.replicate_succ, List.cons_append]
    have hoccurs : toUpper ['b'] <+: toUpper ('a' :: (List.replicate j 'a' ++ ['b'])) := by
      rw [← hdrop]
      exact hi
    exact absurd (List.cons_prefix_cons.mp hoccurs).1 (by decide)

/-- An offset of `2^31 - 1`: the number does not fit an `int`. -/
theorem stripos_too_far :
    ¬ ∀ haystack needle : CString, IsAscii haystack → IsAscii needle →
      ∃ res, striposInMemory (some haystack) (some needle) = some res ∧
        FindsFirst haystack needle res := by
  intro h
  obtain ⟨k, hk⟩ : ∃ k : ℕ, k = 2 ^ 31 - 1 := ⟨_, rfl⟩
  have hneedle : IsAscii ['b'] := isAscii_of_all (by decide)
  have hhaystack : IsAscii (List.replicate k 'a' ++ ['b']) := by
    intro c hc
    rcases List.mem_append.mp hc with ha | hb
    · rw [List.eq_of_mem_replicate ha]
      decide
    · exact hneedle c hb
  have hne : List.replicate k 'a' ++ ['b'] ≠ [] := by simp
  obtain ⟨res, hrun, hfirst⟩ := h _ _ hhaystack hneedle
  rw [striposInMemory_eq hhaystack hneedle, Option.some.injEq,
    (stripos_findsFirst _ _).found hne k (isLeast_after_letters k)] at hrun
  rw [hfirst.found hne k (isLeast_after_letters k), hk] at hrun
  exact absurd hrun (by decide)

/-- What main tests in an ASCII datagram it has received. -/
theorem exit_test_in_memory {datagram : List Char} {buffer : CString}
    (hreceive : receive datagram = some buffer) (hbuffer : IsAscii buffer) :
    striposInMemory (some buffer) (some "exit".toList) = some (stripos buffer "exit".toList) := by
  have hexit : IsAscii "exit".toList := isAscii_of_all (by decide)
  have hshort := receive_length hreceive
  rw [striposInMemory_eq hbuffer hexit, toInt32_stripos (by omega)]

end SerialChrono
