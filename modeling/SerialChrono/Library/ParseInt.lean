import SerialChrono.Library.JsNumber

/-!
# `parseInt` (JavaScript)

`parseInt` reads the number a text begins with, as `strtol` does in base ten, and differs from it in
three ways: a text without a number is `NaN` and not zero, `0x` begins a number in base sixteen, and
a number of any size is rounded to 53 significant bits and not cut to 64.  `parseInt_eq_number_iff`
says for which texts the two agree, and `parseInt_append` that what follows a blank does not matter
once there is something before it.
-/

namespace JsNumber

open CText

/-! ## The numbers -/

/-- A number of a script that is not a fraction; minus zero is zero here. -/
inductive Number
  | nan
  | infinite (negative : Bool)
  | whole (x : ℤ)
  deriving DecidableEq, Repr

/-- The least absolute value that rounds to infinity: a significand of 54 ones, above the
exponents. -/
def overflow : ℕ := (2 ^ 54 - 1) * 2 ^ 970

/-- The number nearest to an integer of any size. -/
def number (x : ℤ) : Number :=
  if x.natAbs < overflow then .whole (roundInt x) else .infinite (decide (x < 0))

lemma lt_overflow {n : ℕ} (h : n ≤ 2 ^ 63) : n < overflow := by
  have hbig (k : ℕ) (hk : 63 ≤ k) : 2 ^ 63 < (2 ^ 54 - 1) * 2 ^ k := by
    have hpow : 2 ^ 63 ≤ 2 ^ k := Nat.pow_le_pow_right (by decide) hk
    omega
  exact lt_of_le_of_lt h (hbig 970 (by decide))

lemma number_of_natAbs_le {x : ℤ} (h : x.natAbs ≤ 2 ^ 63) : number x = .whole (roundInt x) :=
  if_pos (lt_overflow h)

lemma number_of_safe {x : ℤ} (h : Safe x) : number x = .whole x := by
  obtain ⟨hlo, hhi⟩ := h
  rw [number_of_natAbs_le (by omega), roundInt_eq_self ⟨hlo, hhi⟩]

/-- A number in a text. -/
def numberText : Number → CString
  | .nan => "NaN".toList
  | .infinite true => "-Infinity".toList
  | .infinite false => "Infinity".toList
  | .whole x => printInt x

/-- `inc + n` -/
def incremented (inc : ℤ) : Number → Number
  | .whole x => number (inc + x)
  | n => n

/-- Only zero is rounded to zero. -/
lemma roundNat_eq_zero_iff (n : ℕ) : roundNat n = 0 ↔ n = 0 := by
  constructor
  · intro h
    by_contra hn
    have hunit : 2 ^ scale n ≤ n := by
      refine le_trans (Nat.pow_le_pow_right (by decide) ?_) (Nat.log2_self_le hn)
      exact Nat.sub_le _ _
    have hq : 0 < n / 2 ^ scale n := Nat.div_pos hunit (Nat.two_pow_pos _)
    have hpos : 0 < roundNat n := by
      dsimp only [roundNat]
      refine Nat.mul_pos ?_ (Nat.two_pow_pos _)
      split_ifs <;> omega
    omega
  · rintro rfl
    decide

lemma roundInt_eq_zero_iff (x : ℤ) : roundInt x = 0 ↔ x = 0 := by
  have hnat := roundNat_eq_zero_iff x.natAbs
  unfold roundInt
  split_ifs <;> omega

lemma number_eq_whole_zero_iff (x : ℤ) : number x = .whole 0 ↔ x = 0 := by
  unfold number
  split_ifs with h
  · rw [Number.whole.injEq]
    exact roundInt_eq_zero_iff x
  · refine iff_of_false (by simp) ?_
    rintro rfl
    exact h (lt_overflow (Nat.zero_le _))

/-! ## `parseInt` -/

/-- The blanks and line ends that a script skips. -/
def isWhite (c : Char) : Bool :=
  isSpace c || decide (c.toNat ∈ [0xA0, 0x1680, 0x2000, 0x2001, 0x2002, 0x2003, 0x2004, 0x2005,
    0x2006, 0x2007, 0x2008, 0x2009, 0x200A, 0x2028, 0x2029, 0x202F, 0x205F, 0x3000, 0xFEFF])

/-- The value of a digit in base sixteen. -/
def hexValue (c : Char) : Option ℕ :=
  if c.isDigit then some (c.toNat - '0'.toNat)
  else if 'a' ≤ c ∧ c ≤ 'f' then some (c.toNat - 'a'.toNat + 10)
  else if 'A' ≤ c ∧ c ≤ 'F' then some (c.toNat - 'A'.toNat + 10)
  else none

/-- The number in base sixteen a text begins with. -/
def hexNat (s : CString) : Option ℕ :=
  match s.takeWhile fun c => (hexValue c).isSome with
  | [] => none
  | digits => some ((digits.filterMap hexValue).foldl (fun n d => 16 * n + d) 0)

/-- The number in base ten a text begins with. -/
def decNat (s : CString) : Option ℕ :=
  if s.takeWhile Char.isDigit = [] then none else some (textNat s)

/-- A text that begins with `0x`. -/
def hexPrefix : CString → Bool
  | '0' :: x :: _ => x == 'x' || x == 'X'
  | _ => false

/-- The number a text without a sign begins with. -/
def unsignedNat (s : CString) : Option ℕ := if hexPrefix s then hexNat (s.drop 2) else decNat s

/-- A text after its sign. -/
def dropSign : CString → CString
  | '-' :: r => r
  | '+' :: r => r
  | r => r

/-- A number with the sign of a text. -/
def withSign (s : CString) (n : ℕ) : ℤ := if s.head? = some '-' then -n else n

/-- `parseInt` without a radix. -/
def parseInt (s : CString) : Number :=
  let s := s.dropWhile isWhite
  match unsignedNat (dropSign s) with
  | none => .nan
  | some n => number (withSign s n)

/-! ## Where it agrees with `strtol` -/

/-- A text whose characters all have 7 bits. -/
def SevenBit (s : CString) : Prop := ∀ c ∈ s, c.toNat < 128

instance (s : CString) : Decidable (SevenBit s) :=
  decidable_of_iff (s.all fun c => decide (c.toNat < 128)) (by simp [SevenBit])

lemma isWhite_of_ascii {c : Char} (h : c.toNat < 128) : isWhite c = isSpace c := by
  have hnot : c.toNat ∉ [0xA0, 0x1680, 0x2000, 0x2001, 0x2002, 0x2003, 0x2004, 0x2005,
      0x2006, 0x2007, 0x2008, 0x2009, 0x200A, 0x2028, 0x2029, 0x202F, 0x205F, 0x3000, 0xFEFF] := by
    simp only [List.mem_cons, List.not_mem_nil, or_false, not_or]
    omega
  rw [isWhite, decide_eq_false hnot, Bool.or_false]

lemma dropWhile_isWhite {s : CString} (h : SevenBit s) :
    s.dropWhile isWhite = s.dropWhile isSpace := by
  induction s with
  | nil => rfl
  | cons c s ih =>
    rw [List.dropWhile_cons, List.dropWhile_cons, isWhite_of_ascii (h c List.mem_cons_self),
      ih fun d hd => h d (List.mem_cons_of_mem _ hd)]

lemma textInt_eq_withSign (s : CString) :
    textInt s = withSign (s.dropWhile isSpace) (textNat (dropSign (s.dropWhile isSpace))) := by
  unfold textInt
  split
  · next r h => rw [h]; rfl
  · next r h => rw [h]; rfl
  · next r hminus hplus =>
    have hdrop : dropSign (s.dropWhile isSpace) = s.dropWhile isSpace := by
      unfold dropSign
      split
      · next r' h => exact absurd h (hminus r')
      · next r' h => exact absurd h (hplus r')
      · rfl
    rw [hdrop, withSign, if_neg]
    intro hhead
    obtain ⟨r', hr'⟩ := List.head?_eq_some_iff.mp hhead
    exact hminus r' hr'

/-- The text, after blanks and a sign, begins with a digit, and not with a number in base sixteen
other than zero. -/
def Plain (s : CString) : Prop :=
  let u := dropSign (s.dropWhile isSpace)
  u.takeWhile Char.isDigit ≠ [] ∧ (hexPrefix u = true → hexNat (u.drop 2) = some 0)

instance (s : CString) : Decidable (Plain s) := inferInstanceAs (Decidable (_ ∧ _))

/-- A number in base sixteen is zero in base ten, where it ends before the `x`. -/
lemma textNat_of_hexPrefix {s : CString} (h : hexPrefix s = true) : textNat s = 0 := by
  unfold hexPrefix at h
  split at h
  · next x r =>
    have hx : x.isDigit = false := by
      rcases Bool.or_eq_true_iff.mp h with hx | hx <;> rw [beq_iff_eq.mp hx] <;> decide
    have hzero : ('0' :: x :: r).takeWhile Char.isDigit = ['0'] := by
      rw [List.takeWhile_cons_of_pos (by decide), List.takeWhile_cons_of_neg (by rw [hx]; decide)]
    rw [textNat, hzero]
    decide
  · cases h

lemma withSign_eq_zero_iff (s : CString) (n : ℕ) : withSign s n = 0 ↔ n = 0 := by
  unfold withSign
  split_ifs <;> omega

/-- `parseInt` reads the number of base ten of exactly the plain texts. -/
lemma unsignedNat_eq_textNat_iff {u : CString} :
    unsignedNat u = some (textNat u) ↔
      u.takeWhile Char.isDigit ≠ [] ∧ (hexPrefix u = true → hexNat (u.drop 2) = some 0) := by
  unfold unsignedNat
  cases hhex : hexPrefix u with
  | false =>
    rw [if_neg Bool.false_ne_true, decNat]
    split_ifs with hd
    · exact iff_of_false (by simp) fun h => h.1 hd
    · exact iff_of_true rfl ⟨hd, fun h => by cases h⟩
  | true =>
    have hdigit : u.takeWhile Char.isDigit ≠ [] := by
      unfold hexPrefix at hhex
      split at hhex
      · rw [List.takeWhile_cons_of_pos (by decide)]
        exact List.cons_ne_nil _ _
      · cases hhex
    rw [if_pos rfl, textNat_of_hexPrefix hhex]
    exact ⟨fun h => ⟨hdigit, fun _ => h⟩, fun h => h.2 rfl⟩

lemma parseInt_of_plain {s : CString} (hascii : SevenBit s) (h : Plain s) :
    parseInt s = number (textInt s) := by
  unfold parseInt
  rw [dropWhile_isWhite hascii, textInt_eq_withSign]
  dsimp only
  rw [unsignedNat_eq_textNat_iff.mpr h]

/-- A number that is read as zero is written in a plain text. -/
lemma parseInt_eq_zero_iff {s : CString} (hascii : SevenBit s) :
    parseInt s = .whole 0 ↔ Plain s ∧ textInt s = 0 := by
  constructor
  · intro h
    unfold parseInt at h
    rw [dropWhile_isWhite hascii] at h
    dsimp only at h
    generalize hu : dropSign (s.dropWhile isSpace) = u at h
    cases hn : unsignedNat u with
    | none =>
      rw [hn] at h
      cases h
    | some n =>
      rw [hn] at h
      obtain rfl := (withSign_eq_zero_iff _ n).mp ((number_eq_whole_zero_iff _).mp h)
      have htext : textNat u = 0 := by
        cases hhex : hexPrefix u with
        | true => exact textNat_of_hexPrefix hhex
        | false =>
          rw [unsignedNat, hhex, if_neg Bool.false_ne_true, decNat] at hn
          split_ifs at hn with hd
          exact Option.some.inj hn
      refine ⟨?_, ?_⟩
      · rw [Plain, hu]
        exact unsignedNat_eq_textNat_iff.mp (by rw [hn, htext])
      · rw [textInt_eq_withSign, hu, withSign_eq_zero_iff, htext]
  · rintro ⟨hplain, hzero⟩
    rw [parseInt_of_plain hascii hplain, hzero, number_eq_whole_zero_iff]

/-- `parseInt` reads what `strtol` reads in exactly the plain texts. -/
lemma parseInt_eq_number_iff {s : CString} (hascii : SevenBit s)
    (hlong : (textInt s).natAbs ≤ 2 ^ 63) :
    parseInt s = number (textInt s) ↔ Plain s := by
  refine ⟨fun h => ?_, parseInt_of_plain hascii⟩
  unfold parseInt at h
  rw [dropWhile_isWhite hascii] at h
  dsimp only at h
  generalize hu : dropSign (s.dropWhile isSpace) = u at h
  cases hn : unsignedNat u with
  | none =>
    rw [hn, number_of_natAbs_le hlong] at h
    cases h
  | some n =>
    rw [hn] at h
    rw [Plain, hu]
    refine unsignedNat_eq_textNat_iff.mp ?_
    cases hhex : hexPrefix u with
    | true =>
      have htext := textNat_of_hexPrefix hhex
      rw [textInt_eq_withSign, hu, htext, (withSign_eq_zero_iff _ 0).mpr rfl,
        (number_eq_whole_zero_iff 0).mpr rfl, number_eq_whole_zero_iff, withSign_eq_zero_iff] at h
      rw [hn, htext, h]
    | false =>
      rw [unsignedNat, hhex, if_neg Bool.false_ne_true, decNat] at hn ⊢
      split_ifs at hn ⊢ with hd
      rfl

/-! ## What follows a blank -/

section

variable {a : CString} (r : CString)

lemma takeWhile_append_blank {p : Char → Bool} (hp : p ' ' = false) :
    (a ++ ' ' :: r).takeWhile p = a.takeWhile p := by
  induction a with
  | nil => exact List.takeWhile_cons_of_neg (by rw [hp]; decide)
  | cons c a ih => rw [List.cons_append, List.takeWhile_cons, List.takeWhile_cons, ih]

lemma hexPrefix_append_blank : hexPrefix (a ++ ' ' :: r) = hexPrefix a := by
  match a with
  | [] => rfl
  | [c] =>
    by_cases hc : c = '0'
    · subst hc
      rfl
    · simp [hexPrefix, hc]
  | c :: d :: a =>
    by_cases hc : c = '0'
    · subst hc
      rfl
    · simp [hexPrefix, hc]

lemma unsignedNat_append_blank : unsignedNat (a ++ ' ' :: r) = unsignedNat a := by
  have hdec : decNat (a ++ ' ' :: r) = decNat a := by
    rw [decNat, decNat, textNat, textNat, takeWhile_append_blank r (by decide)]
  unfold unsignedNat
  rw [hexPrefix_append_blank, hdec]
  cases hhex : hexPrefix a with
  | false => rfl
  | true =>
    have hlen : 2 ≤ a.length := by
      unfold hexPrefix at hhex
      split at hhex
      · simp only [List.length_cons]
        omega
      · cases hhex
    rw [List.drop_append_of_le_length hlen, hexNat, hexNat, takeWhile_append_blank r (by decide)]

lemma dropSign_append_blank (ha : a ≠ []) : dropSign (a ++ ' ' :: r) = dropSign a ++ ' ' :: r := by
  obtain ⟨c, a, rfl⟩ := List.exists_cons_of_ne_nil ha
  rw [List.cons_append]
  by_cases hminus : c = '-'
  · subst hminus
    rfl
  · by_cases hplus : c = '+'
    · subst hplus
      rfl
    · simp [dropSign, hminus, hplus]

/-- What follows a blank does not matter if there is something before it. -/
lemma parseInt_append (ha : ∃ c ∈ a, isWhite c = false) :
    parseInt (a ++ ' ' :: r) = parseInt a := by
  obtain ⟨c, hc, hwhite⟩ := ha
  have hne : a.dropWhile isWhite ≠ [] := fun h => by
    rw [List.dropWhile_eq_nil_iff.mp h c hc] at hwhite
    cases hwhite
  have hdrop : (a ++ ' ' :: r).dropWhile isWhite = a.dropWhile isWhite ++ ' ' :: r := by
    rw [List.dropWhile_append, if_neg (by simpa using hne)]
  have hsign (n : ℕ) : withSign (a.dropWhile isWhite ++ ' ' :: r) n =
      withSign (a.dropWhile isWhite) n := by
    obtain ⟨d, s, hs⟩ := List.exists_cons_of_ne_nil hne
    rw [hs]
    rfl
  unfold parseInt
  rw [hdrop]
  dsimp only
  rw [dropSign_append_blank r hne, unsignedNat_append_blank]
  simp only [hsign]

/-- Blanks in front do not matter. -/
lemma parseInt_append_of_white (ha : ∀ c ∈ a, isWhite c = true) :
    parseInt (a ++ r) = parseInt r := by
  unfold parseInt
  rw [List.dropWhile_append_of_pos ha]

end

/-! ## Printed numbers -/

lemma toNat_lt_of_isDigit {c : Char} (h : c.isDigit = true) : c.toNat < 128 := by
  simp only [Char.isDigit, Bool.and_eq_true, decide_eq_true_eq, UInt32.le_iff_toNat_le] at h
  exact lt_of_le_of_lt h.2 (by decide)

/-- Digits are plain, also with a sign. -/
lemma plain_of_digits {s : CString} (h : (dropSign s).all Char.isDigit = true)
    (hne : dropSign s ≠ []) (hspace : s.dropWhile isSpace = s) : Plain s := by
  have hall := List.all_eq_true.mp h
  rw [Plain, hspace]
  refine ⟨by rwa [List.takeWhile_eq_self_iff.mpr hall], fun hhex => ?_⟩
  unfold hexPrefix at hhex
  split at hhex
  · next x r heq =>
    have hx := hall x (by rw [heq]; simp)
    rcases Bool.or_eq_true_iff.mp hhex with hx' | hx' <;> rw [beq_iff_eq.mp hx'] at hx <;> cases hx
  · cases hhex

lemma sevenBit_printInt (x : ℤ) : SevenBit (printInt x) := fun c hc => by
  rcases mem_printInt hc with rfl | hdigit
  · decide
  · exact toNat_lt_of_isDigit hdigit

lemma plain_printInt (x : ℤ) : Plain (printInt x) := by
  have hdigit (n : ℕ) := @isDigit_of_mem_printNat n
  obtain ⟨c, r, hcons⟩ := List.exists_cons_of_ne_nil (printNat_ne_nil x.natAbs)
  have hc : c.isDigit = true := hdigit x.natAbs (by rw [hcons]; exact List.mem_cons_self)
  have hall : (c :: r).all Char.isDigit = true :=
    List.all_eq_true.mpr fun d hd => hdigit x.natAbs (by rw [hcons]; exact hd)
  have hsign : dropSign (c :: r) = c :: r := by
    unfold dropSign
    split
    · next heq => rw [(List.cons.inj heq).1] at hc; cases hc
    · next heq => rw [(List.cons.inj heq).1] at hc; cases hc
    · rfl
  unfold printInt
  rw [hcons]
  split_ifs
  · exact plain_of_digits hall (List.cons_ne_nil _ _) rfl
  · refine plain_of_digits (by rw [hsign]; exact hall)
      (by rw [hsign]; exact List.cons_ne_nil _ _) ?_
    exact List.dropWhile_cons_of_neg (by rw [isSpace_of_isDigit hc]; decide)

/-- A printed number is read back. -/
lemma parseInt_printInt {x : ℤ} (h : Safe x) : parseInt (printInt x) = .whole x := by
  have htext := textInt_printInt_append x endsNumber_nil
  rw [List.append_nil] at htext
  rw [parseInt_of_plain (sevenBit_printInt x) (plain_printInt x), htext, number_of_safe h]

end JsNumber
