import Mathlib.Data.Int.GCD
import Mathlib.Data.Int.ModEq
import Mathlib.Logic.Equiv.Basic
import Mathlib.Logic.Function.Iterate
import Mathlib.Tactic.Ring

/-!
# Moving elements along cycles

The way to exchange two neighbouring blocks of an array in place is to follow the cycles of the
permutation: from a leader one goes from place to place, and exchanges what is there with what is at
the leader.  `follow_period` is one cycle: each element of it ends up one place further.
`followAll_apply` is the loop over the leaders, if their cycles do not meet.

`rotate_apply` are the cycles of the exchange of two blocks, of lengths `m` and `n`: each place is
`n` further, modulo `m + n`, and the cycles of `m`, `m + 1`, ... up to the greatest common divisor of
the lengths meet every place once.
-/

namespace CycleRotation

variable {ι α : Type*}

/-! ## One cycle -/

section

variable [DecidableEq ι]

/-- The place after this one, and the array after it has been exchanged with the leader. -/
def followStep (f : ι → ι) (c : ι) (s : ι × (ι → α)) : ι × (ι → α) :=
  (f s.1, s.2 ∘ Equiv.swap (f s.1) c)

/-- The array after that many steps along the cycle of a leader. -/
def follow (f : ι → ι) (c : ι) (steps : ℕ) (a : ι → α) : ι × (ι → α) :=
  (followStep f c)^[steps] (c, a)

end

/-- A place comes back to itself after `period` steps and not before. -/
structure HasPeriod (f : ι → ι) (c : ι) (period : ℕ) : Prop where
  pos : 0 < period
  back : f^[period] c = c
  first : ∀ k, 0 < k → k < period → f^[k] c ≠ c

variable {f : ι → ι} {c : ι} {period : ℕ}

/-- The places of a cycle are different. -/
lemma HasPeriod.injective (h : HasPeriod f c period) {i j : ℕ} (hi : i < period) (hj : j < period)
    (heq : f^[i] c = f^[j] c) : i = j := by
  wlog hlt : i < j generalizing i j
  · rcases Nat.eq_or_lt_of_not_lt hlt with hij | hji
    · exact hij
    · exact (this hj hi heq.symm hji).symm
  · exfalso
    have hreturn : f^[period - j + i] c = c := by
      rw [Function.iterate_add_apply, heq, ← Function.iterate_add_apply,
        Nat.sub_add_cancel hj.le, h.back]
    exact h.first _ (by omega) (by omega) hreturn

variable [DecidableEq ι]

@[simp] lemma follow_succ (f : ι → ι) (c : ι) (steps : ℕ) (a : ι → α) :
    follow f c (steps + 1) a = followStep f c (follow f c steps a) :=
  Function.iterate_succ_apply' _ _ _

lemma fst_follow (f : ι → ι) (c : ι) (steps : ℕ) (a : ι → α) :
    (follow f c steps a).1 = f^[steps] c := by
  induction steps with
  | zero => rfl
  | succ steps ih => rw [follow_succ, followStep, ih, Function.iterate_succ_apply']

lemma snd_follow_succ (f : ι → ι) (c : ι) (steps : ℕ) (a : ι → α) (p : ι) :
    (follow f c (steps + 1) a).2 p =
      (follow f c steps a).2 (Equiv.swap (f^[steps + 1] c) c p) := by
  rw [follow_succ, followStep, fst_follow, ← Function.iterate_succ_apply' f steps c]
  rfl

/-- Before the cycle is closed: the elements met so far are one place further, and the last of them
is at the leader. -/
lemma follow_before (h : HasPeriod f c period) (a : ι → α) {steps : ℕ} (hsteps : steps < period) :
    (follow f c steps a).2 c = a (f^[steps] c) ∧
      (∀ k < steps, (follow f c steps a).2 (f^[k + 1] c) = a (f^[k] c)) ∧
      ∀ p, (∀ k ≤ steps, f^[k] c ≠ p) → (follow f c steps a).2 p = a p := by
  induction steps with
  | zero => exact ⟨rfl, fun k hk => absurd hk k.not_lt_zero, fun _ _ => rfl⟩
  | succ steps ih =>
    obtain ⟨hleader, hmoved, hrest⟩ := ih (Nat.lt_of_succ_lt hsteps)
    have hnew : f^[steps + 1] c ≠ c := h.first _ steps.succ_pos hsteps
    refine ⟨?_, fun k hk => ?_, fun p hp => ?_⟩
    · rw [snd_follow_succ, Equiv.swap_apply_right]
      refine hrest _ fun k hk heq => ?_
      have := h.injective (by omega) hsteps heq
      omega
    · rcases Nat.lt_succ_iff_lt_or_eq.mp hk with hlt | rfl
      · have hne : f^[k + 1] c ≠ f^[steps + 1] c := fun heq => by
          have := h.injective (by omega) hsteps heq
          omega
        rw [snd_follow_succ, Equiv.swap_apply_of_ne_of_ne hne
          (h.first _ k.succ_pos (by omega)), hmoved k hlt]
      · rw [snd_follow_succ, Equiv.swap_apply_left, hleader]
    · have hleader' : p ≠ c := (hp 0 (Nat.zero_le _)).symm
      rw [snd_follow_succ, Equiv.swap_apply_of_ne_of_ne (hp (steps + 1) le_rfl).symm hleader',
        hrest p fun k hk => hp k (Nat.le_succ_of_le hk)]

/-- Once around a cycle each of its elements is one place further, and the others are where they
were. -/
lemma follow_period (h : HasPeriod f c period) (a : ι → α) :
    (∀ k, (follow f c period a).2 (f (f^[k] c)) = a (f^[k] c)) ∧
      ∀ p, (∀ k, f^[k] c ≠ p) → (follow f c period a).2 p = a p := by
  obtain ⟨last, rfl⟩ := Nat.exists_eq_succ_of_ne_zero h.pos.ne'
  obtain ⟨hleader, hmoved, hrest⟩ := follow_before h a (Nat.lt_succ_self last)
  have hsame (p : ι) : (follow f c (last + 1) a).2 p = (follow f c last a).2 p := by
    rw [snd_follow_succ, h.back, Equiv.swap_self]
    rfl
  refine ⟨fun k => ?_, fun p hp => ?_⟩
  · -- a place of the cycle is met within the first round
    have hround : f^[k] c = f^[k % (last + 1)] c := by
      have hfixed : f^[(last + 1) * (k / (last + 1))] c = c := by
        rw [Function.iterate_mul]
        exact Function.iterate_fixed h.back _
      conv_lhs => rw [← Nat.mod_add_div k (last + 1), Function.iterate_add_apply, hfixed]
    have hlt := Nat.mod_lt k last.succ_pos
    rw [hround, ← Function.iterate_succ_apply' f, hsame]
    rcases Nat.lt_succ_iff_lt_or_eq.mp hlt with hk | hk
    · exact hmoved _ hk
    · rw [hk]
      rw [show f^[last.succ] c = c from h.back]
      exact hleader
  · rw [hsame]
    exact hrest p fun k _ => hp k

/-! ## All cycles -/

/-- The loop over the leaders. -/
def followAll (f : ι → ι) (period : ℕ) (leaders : List ι) (a : ι → α) : ι → α :=
  leaders.foldl (fun a c => (follow f c period a).2) a

/-- The loop moves each element that is on one of the cycles by one place, if no two cycles
meet. -/
lemma followAll_apply {leaders : List ι} (hperiod : ∀ c ∈ leaders, HasPeriod f c period)
    (hdisjoint : leaders.Pairwise fun c d => ∀ i j, f^[i] c ≠ f^[j] d) (a : ι → α) :
    (∀ c ∈ leaders, ∀ k, followAll f period leaders a (f (f^[k] c)) = a (f^[k] c)) ∧
      ∀ p, (∀ c ∈ leaders, ∀ k, f^[k] c ≠ p) → followAll f period leaders a p = a p := by
  induction leaders generalizing a with
  | nil => exact ⟨fun c hc => absurd hc List.not_mem_nil, fun _ _ => rfl⟩
  | cons c leaders ih =>
    obtain ⟨hhead, htail⟩ := List.pairwise_cons.mp hdisjoint
    obtain ⟨hmoved, hrest⟩ := follow_period (hperiod c List.mem_cons_self) a
    obtain ⟨hmoved', hrest'⟩ := ih (fun d hd => hperiod d (List.mem_cons_of_mem _ hd)) htail
      (follow f c period a).2
    refine ⟨fun d hd k => ?_, fun p hp => ?_⟩
    · rcases List.mem_cons.mp hd with rfl | hd
      · refine (hrest' _ fun e he j heq => ?_).trans (hmoved k)
        rw [← Function.iterate_succ_apply' f] at heq
        exact hhead e he (k + 1) j heq.symm
      · exact (hmoved' d hd k).trans (hrest _ fun j heq => hhead d hd j k heq)
    · exact (hrest' p fun d hd => hp d (List.mem_cons_of_mem _ hd)).trans
        (hrest p (hp c List.mem_cons_self))

/-! ## Two neighbouring blocks -/

section Blocks

variable {start m n : ℕ}

/-- Where an element goes if the blocks of lengths `m` and `n` in front of and behind `middle` are
exchanged. -/
def blockPlace (middle m n q : ℕ) : ℕ := if middle ≤ q then q - m else q + n

lemma blockPlace_eq {r : ℕ} (hr : r < m + n) :
    blockPlace (start + m) m n (start + r) = start + (r + n) % (m + n) := by
  unfold blockPlace
  split_ifs with hback
  · have hwrap : (r + n) % (m + n) = r - m := by
      rw [show r + n = r - m + (m + n) by omega, Nat.add_mod_right, Nat.mod_eq_of_lt (by omega)]
    omega
  · rw [Nat.mod_eq_of_lt (by omega)]
    omega

/-- The places of a cycle. -/
lemma iterate_blockPlace {r : ℕ} (hr : r < m + n) (k : ℕ) :
    (blockPlace (start + m) m n)^[k] (start + r) = start + (r + k * n) % (m + n) := by
  induction k with
  | zero => simp [Nat.mod_eq_of_lt hr]
  | succ k ih =>
    rw [Function.iterate_succ_apply', ih, blockPlace_eq (Nat.mod_lt _ (by omega)),
      Nat.mod_add_mod, Nat.succ_mul, Nat.add_assoc]

/-- The number of places of a cycle. -/
def blockPeriod (m n : ℕ) : ℕ := (m + n) / m.gcd n

lemma gcd_dvd_add (m n : ℕ) : m.gcd n ∣ m + n :=
  Nat.dvd_add (Nat.gcd_dvd_left m n) (Nat.gcd_dvd_right m n)

lemma gcd_mul_blockPeriod (m n : ℕ) : m.gcd n * blockPeriod m n = m + n :=
  Nat.mul_div_cancel' (gcd_dvd_add m n)

/-- A multiple of `n` is a multiple of `m + n` after a whole number of rounds only. -/
lemma dvd_mul_iff (hm : 0 < m) (n k : ℕ) : m + n ∣ k * n ↔ blockPeriod m n ∣ k := by
  have hg : 0 < m.gcd n := Nat.gcd_pos_of_pos_left n hm
  obtain ⟨n', hn'⟩ := Nat.gcd_dvd_right m n
  have hcoprime : (blockPeriod m n).Coprime n' := by
    have hgcd : (m + n).gcd n = m.gcd n := Nat.gcd_add_self_left n m
    have h := Nat.coprime_div_gcd_div_gcd (m := m + n) (n := n) (by rw [hgcd]; exact hg)
    rw [hgcd] at h
    have hdiv : n / m.gcd n = n' := Nat.div_eq_of_eq_mul_right hg hn'
    rwa [hdiv] at h
  have hkn : k * n = m.gcd n * (k * n') := by
    conv_lhs => rw [hn']
    ring
  rw [← gcd_mul_blockPeriod m n, hkn, Nat.mul_dvd_mul_iff_left hg]
  exact Nat.Coprime.dvd_mul_right hcoprime

lemma hasPeriod_blockPlace (hm : 0 < m) {r : ℕ} (hr : r < m + n) :
    HasPeriod (blockPlace (start + m) m n) (start + r) (blockPeriod m n) := by
  have hmultiple (k : ℕ) : (r + k * n) % (m + n) = r ↔ m + n ∣ k * n := by
    rw [← Nat.modEq_zero_iff_dvd]
    constructor
    · intro h
      refine Nat.ModEq.add_left_cancel' r ?_
      rw [Nat.ModEq, h, Nat.add_zero, Nat.mod_eq_of_lt hr]
    · intro h
      have hsum := Nat.ModEq.add_left r h
      rwa [Nat.ModEq, Nat.add_zero, Nat.mod_eq_of_lt hr] at hsum
  refine ⟨?_, ?_, fun k hpos hlt heq => ?_⟩
  · refine Nat.pos_of_ne_zero fun hzero => ?_
    have h := gcd_mul_blockPeriod m n
    rw [hzero] at h
    omega
  · rw [iterate_blockPlace hr, (hmultiple _).mpr ((dvd_mul_iff hm n _).mpr dvd_rfl)]
  · rw [iterate_blockPlace hr] at heq
    have hdvd := (dvd_mul_iff hm n k).mp ((hmultiple k).mp (Nat.add_left_cancel heq))
    exact absurd (Nat.le_of_dvd hpos hdvd) (Nat.not_le_of_lt hlt)

/-- The leaders: as many places behind `middle` as the greatest common divisor says. -/
def blockLeaders (middle m n : ℕ) : List ℕ := (List.range (m.gcd n)).map (middle + ·)

lemma lt_of_mem_leaders (hn : 0 < n) {i : ℕ} (hi : i < m.gcd n) : m + i < m + n :=
  Nat.add_lt_add_left (lt_of_lt_of_le hi (Nat.le_of_dvd hn (Nat.gcd_dvd_right m n))) m

/-- A cycle stays with its leader, modulo the greatest common divisor, so that two cycles do not
meet. -/
lemma pairwise_leaders (hn : 0 < n) : (blockLeaders (start + m) m n).Pairwise fun c d =>
    ∀ i j, (blockPlace (start + m) m n)^[i] c ≠ (blockPlace (start + m) m n)^[j] d := by
  refine List.pairwise_map.mpr (List.Pairwise.imp_of_mem ?_ List.nodup_range)
  intro i j hi hj hne k l heq
  refine hne ?_
  have hi := List.mem_range.mp hi
  have hj := List.mem_range.mp hj
  have hresidue {i : ℕ} (hi : i < m.gcd n) (k : ℕ) :
      (m + i + k * n) % (m + n) % m.gcd n = i := by
    rw [Nat.mod_mod_of_dvd _ (gcd_dvd_add m n), Nat.add_mod,
      Nat.mod_eq_zero_of_dvd (dvd_mul_of_dvd_right (Nat.gcd_dvd_right m n) k), Nat.add_zero,
      Nat.mod_mod, Nat.add_mod, Nat.mod_eq_zero_of_dvd (Nat.gcd_dvd_left m n), Nat.zero_add,
      Nat.mod_mod, Nat.mod_eq_of_lt hi]
  rw [Nat.add_assoc, Nat.add_assoc, iterate_blockPlace (lt_of_mem_leaders hn hi),
    iterate_blockPlace (lt_of_mem_leaders hn hj)] at heq
  rw [← hresidue hi k, Nat.add_left_cancel heq, hresidue hj l]

/-- Every place of the two blocks is on one of the cycles. -/
lemma exists_leader (hm : 0 < m) (hn : 0 < n) {r : ℕ} (hr : r < m + n) :
    ∃ c ∈ blockLeaders (start + m) m n, ∃ k, (blockPlace (start + m) m n)^[k] c = start + r := by
  have hg : 0 < m.gcd n := Nat.gcd_pos_of_pos_left n hm
  have hgcd : n.gcd (m + n) = m.gcd n := by
    rw [Nat.gcd_comm, Nat.gcd_add_self_left]
  have hlt : n.gcd (m + n) < m + n := by
    have hle := Nat.le_of_dvd hn (Nat.gcd_dvd_left n (m + n))
    omega
  obtain ⟨j, -, hj⟩ := Nat.exists_mul_mod_eq_gcd hlt
  have hi : r % m.gcd n < m.gcd n := Nat.mod_lt r hg
  refine ⟨start + m + r % m.gcd n, List.mem_map_of_mem (List.mem_range.mpr hi),
    j * (r / m.gcd n) + 1, ?_⟩
  rw [Nat.add_assoc, iterate_blockPlace (lt_of_mem_leaders hn hi)]
  have hstep : (j * (r / m.gcd n) + 1) * n ≡ m.gcd n * (r / m.gcd n) + n [MOD m + n] := by
    have hjn : n * j ≡ m.gcd n [MOD m + n] := by
      rw [Nat.ModEq, hj, hgcd, Nat.mod_eq_of_lt (hgcd ▸ hlt)]
    have hmul := (hjn.mul_right (r / m.gcd n)).add_right n
    have hring : n * j * (r / m.gcd n) + n = (j * (r / m.gcd n) + 1) * n := by ring
    rwa [hring] at hmul
  have htotal : m + r % m.gcd n + (j * (r / m.gcd n) + 1) * n ≡ r [MOD m + n] := by
    refine (hstep.add_left (m + r % m.gcd n)).trans ?_
    have hsum : m + r % m.gcd n + (m.gcd n * (r / m.gcd n) + n) = r + (m + n) := by
      have hdiv := Nat.mod_add_div r (m.gcd n)
      omega
    rw [hsum, Nat.ModEq, Nat.add_mod_right]
  rw [htotal, Nat.mod_eq_of_lt hr]

/-- Following the cycles exchanges the blocks, and leaves everything else where it is. -/
lemma followAll_blocks (hm : 0 < m) (hn : 0 < n) (a : ℕ → α) :
    let a' := followAll (blockPlace (start + m) m n) (blockPeriod m n)
      (blockLeaders (start + m) m n) a
    (∀ r < m, a' (start + n + r) = a (start + r)) ∧
      (∀ r < n, a' (start + r) = a (start + m + r)) ∧
      ∀ p, p < start ∨ start + m + n ≤ p → a' p = a p := by
  have hperiod : ∀ c ∈ blockLeaders (start + m) m n,
      HasPeriod (blockPlace (start + m) m n) c (blockPeriod m n) := by
    intro c hc
    obtain ⟨i, hi, rfl⟩ := List.mem_map.mp hc
    rw [Nat.add_assoc]
    exact hasPeriod_blockPlace hm (lt_of_mem_leaders hn (List.mem_range.mp hi))
  obtain ⟨hmoved, hrest⟩ := followAll_apply hperiod (pairwise_leaders hn) a
  have hplace {r : ℕ} (hr : r < m + n) :
      followAll (blockPlace (start + m) m n) (blockPeriod m n) (blockLeaders (start + m) m n) a
        (start + (r + n) % (m + n)) = a (start + r) := by
    obtain ⟨c, hc, k, hk⟩ := @exists_leader start _ _ hm hn _ hr
    have h := hmoved c hc k
    rwa [hk, blockPlace_eq hr] at h
  refine ⟨fun r hr => ?_, fun r hr => ?_, fun p hp => hrest p fun c hc k heq => ?_⟩
  · have h := hplace (Nat.lt_add_right n hr)
    rwa [Nat.mod_eq_of_lt (by omega), Nat.add_comm r n, ← Nat.add_assoc] at h
  · have h := hplace (Nat.add_lt_add_left hr m)
    rwa [show m + r + n = r + (m + n) by omega, Nat.add_mod_right, Nat.mod_eq_of_lt (by omega),
      ← Nat.add_assoc] at h
  · obtain ⟨i, hi, rfl⟩ := List.mem_map.mp hc
    rw [Nat.add_assoc, iterate_blockPlace (lt_of_mem_leaders hn (List.mem_range.mp hi))] at heq
    have hlt := Nat.mod_lt (m + i + k * n) (show 0 < m + n by omega)
    omega

end Blocks

/-! ## Lists -/

/-- The elements at two places of a list are exchanged. -/
def exchange (l : List α) (i j : ℕ) : List α :=
  match l[i]?, l[j]? with
  | some x, some y => (l.set i y).set j x
  | _, _ => l

@[simp] lemma length_exchange (l : List α) (i j : ℕ) : (exchange l i j).length = l.length := by
  unfold exchange
  split
  · rw [List.length_set, List.length_set]
  · rfl

lemma getElem?_exchange {l : List α} {i j : ℕ} (hi : i < l.length) (hj : j < l.length) (p : ℕ) :
    (exchange l i j)[p]? = l[Equiv.swap i j p]? := by
  unfold exchange
  rw [List.getElem?_eq_getElem hi, List.getElem?_eq_getElem hj]
  simp only [List.getElem?_set, List.length_set]
  by_cases hpj : j = p
  · subst hpj
    simp [hi, hj]
  · by_cases hpi : i = p
    · subst hpi
      simp [hpj, hi, hj]
    · rw [Equiv.swap_apply_of_ne_of_ne (Ne.symm hpi) (Ne.symm hpj)]
      simp [hpj, hpi]

/-- `followStep` on a list. -/
def exchangeStep (f : ℕ → ℕ) (c : ℕ) (s : ℕ × List α) : ℕ × List α :=
  (f s.1, exchange s.2 (f s.1) c)

/-- The loop over the leaders. -/
def exchangeAll (f : ℕ → ℕ) (period : ℕ) (leaders : List ℕ) (l : List α) : List α :=
  leaders.foldl (fun l c => ((exchangeStep f c)^[period] (c, l)).2) l

section

variable {f : ℕ → ℕ} {c : ℕ} {l : List α}

lemma iterate_exchangeStep (hc : ∀ k, f^[k] c < l.length) (steps : ℕ) :
    let s := (exchangeStep f c)^[steps] (c, l)
    s.1 = f^[steps] c ∧ s.2.length = l.length ∧
      ∀ p, s.2[p]? = (follow f c steps fun p => l[p]?).2 p := by
  induction steps with
  | zero => exact ⟨rfl, rfl, fun _ => rfl⟩
  | succ steps ih =>
    obtain ⟨hplace, hlength, hget⟩ := ih
    rw [Function.iterate_succ_apply']
    refine ⟨?_, ?_, fun p => ?_⟩
    · rw [exchangeStep, hplace, Function.iterate_succ_apply']
    · rw [exchangeStep, length_exchange, hlength]
    · rw [exchangeStep, hplace, ← Function.iterate_succ_apply' f,
        getElem?_exchange (hlength ▸ hc (steps + 1)) (hlength ▸ hc 0), hget, snd_follow_succ]

lemma getElem?_exchangeAll {leaders : List ℕ}
    (hleaders : ∀ c ∈ leaders, ∀ k, f^[k] c < l.length) (period p : ℕ) :
    (exchangeAll f period leaders l)[p]? = followAll f period leaders (fun p => l[p]?) p := by
  induction leaders generalizing l with
  | nil => rfl
  | cons c leaders ih =>
    obtain ⟨-, hlength, hget⟩ := iterate_exchangeStep (hleaders c List.mem_cons_self) period
    have hrest := ih (l := ((exchangeStep f c)^[period] (c, l)).2) fun d hd k =>
      hlength ▸ hleaders d (List.mem_cons_of_mem _ hd) k
    rw [funext hget] at hrest
    exact hrest

end

/-- Two neighbouring blocks of a list change places. -/
lemma exchangeAll_blocks (before first second after : List α) (hfirst : first ≠ [])
    (hsecond : second ≠ []) :
    exchangeAll (blockPlace (before.length + first.length) first.length second.length)
        (blockPeriod first.length second.length)
        (blockLeaders (before.length + first.length) first.length second.length)
        (before ++ (first ++ (second ++ after))) =
      before ++ (second ++ (first ++ after)) := by
  have hm := List.length_pos_iff.mpr hfirst
  have hn := List.length_pos_iff.mpr hsecond
  have hinside : ∀ c ∈ blockLeaders (before.length + first.length) first.length second.length,
      ∀ k, (blockPlace (before.length + first.length) first.length second.length)^[k] c <
        (before ++ (first ++ (second ++ after))).length := by
    intro c hc k
    obtain ⟨i, hi, rfl⟩ := List.mem_map.mp hc
    rw [Nat.add_assoc, iterate_blockPlace (lt_of_mem_leaders hn (List.mem_range.mp hi))]
    have hlt := Nat.mod_lt (first.length + i + k * second.length)
      (show 0 < first.length + second.length by omega)
    simp only [List.length_append]
    omega
  obtain ⟨hfirst', hsecond', hrest⟩ := @followAll_blocks _ before.length _ _ hm hn
    fun p => (before ++ (first ++ (second ++ after)))[p]?
  refine List.ext_getElem? fun p => ?_
  rw [getElem?_exchangeAll hinside]
  rcases Nat.lt_or_ge p before.length with hp | hp
  · rw [hrest p (.inl hp), List.getElem?_append_left hp, List.getElem?_append_left hp]
  · obtain ⟨r, rfl⟩ := Nat.exists_eq_add_of_le hp
    rw [List.getElem?_append_right hp, Nat.add_sub_cancel_left]
    rcases Nat.lt_or_ge r second.length with hr | hr
    · rw [hsecond' r hr, List.getElem?_append_left hr, ← List.append_assoc before,
        ← List.length_append, List.getElem?_append_right (by omega), Nat.add_sub_cancel_left,
        List.getElem?_append_left hr]
    · obtain ⟨q, rfl⟩ := Nat.exists_eq_add_of_le hr
      rw [List.getElem?_append_right hr, Nat.add_sub_cancel_left, ← Nat.add_assoc]
      rcases Nat.lt_or_ge q first.length with hq | hq
      · rw [hfirst' q hq, List.getElem?_append_left hq, List.getElem?_append_right (by omega),
          Nat.add_sub_cancel_left, List.getElem?_append_left hq]
      · obtain ⟨t, rfl⟩ := Nat.exists_eq_add_of_le hq
        rw [hrest _ (.inr (by omega)), List.getElem?_append_right hq, Nat.add_sub_cancel_left]
        simp only [← List.append_assoc]
        rw [List.getElem?_append_right (by simp only [List.length_append]; omega)]
        congr 1
        simp only [List.length_append]
        omega

end CycleRotation
