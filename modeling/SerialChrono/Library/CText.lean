import Mathlib.Tactic.Common
import Mathlib.Data.Int.Order.Basic
import Mathlib.Data.List.Infix
import Mathlib.Data.List.TakeWhile
import Mathlib.Data.Nat.Digits.Defs
import Mathlib.Tactic.Linarith

/-!
# C strings and the numbers the C library reads and writes in them

A C string is the list of its bytes before the terminator.  This file gives the conversions
a C program makes between such strings and its integers: `strtol` in base ten with its
saturation, `atoi` as the `int` conversion of that value, and the `%d` and `%lu` texts of
`printf`.  A `long` has 64 bits and an `int` 32.

The reading side is split in two.  `textInt` is the integer a text begins with, unbounded, and
`strtol` clamps it; every statement about a particular text goes through `textInt`.  The
results the file exists for are the round trips `textInt_printInt_append`,
`strtol_printInt_append` and `atoi_printInt_append`: a number printed with `%d` and followed
by anything that is not a digit reads back as itself, within the range of the reader.
-/

namespace CText

/-- A C string: the bytes before its terminator. -/
abbrev CString := List Char

/-- The C string held by a byte buffer: everything up to the first NUL. -/
def cstr (bytes : List Char) : CString := bytes.takeWhile (· ≠ '\x00')

/-- A text is not cut before its end at a character it does not contain. -/
lemma takeWhile_ne_append {c : Char} {s : CString} (h : c ∉ s) (rest : CString) :
    (s ++ rest).takeWhile (· ≠ c) = s ++ rest.takeWhile (· ≠ c) := by
  refine List.takeWhile_append_of_pos fun d hd => ?_
  exact decide_eq_true fun hdc => h (hdc ▸ hd)

/-- A text is cut at the first occurrence of a character. -/
lemma takeWhile_ne_append_cons (c : Char) (s rest : CString) :
    (s ++ c :: rest).takeWhile (· ≠ c) = s.takeWhile (· ≠ c) := by
  induction s with
  | nil => simp
  | cons d s ih =>
    rw [List.cons_append, List.takeWhile_cons, List.takeWhile_cons, ih]

lemma takeWhile_ne_self {c : Char} {s : CString} (h : c ∉ s) : s.takeWhile (· ≠ c) = s := by
  have hall := takeWhile_ne_append h []
  rwa [List.append_nil, List.takeWhile_nil, List.append_nil] at hall

lemma nul_notMem_cstr (bytes : List Char) : '\x00' ∉ cstr bytes :=
  fun h => absurd (List.mem_takeWhile_imp h) (by simp)

/-- A terminator cuts a text where its first one was. -/
lemma prefix_cstr_append_nul (bytes : List Char) :
    cstr bytes ++ ['\x00'] <+: bytes ++ ['\x00'] := by
  induction bytes with
  | nil => exact List.prefix_refl _
  | cons c bytes ih =>
    by_cases hc : c = '\x00'
    · subst hc
      exact List.prefix_append ['\x00'] (bytes ++ ['\x00'])
    · have hcons : cstr (c :: bytes) = c :: cstr bytes :=
        List.takeWhile_cons_of_pos (decide_eq_true hc)
      rw [hcons]
      exact List.cons_prefix_cons.mpr ⟨rfl, ih⟩

/-- The first line in a byte buffer, once `strchr` has found its newline and a NUL has been stored
there. -/
def firstLine (bytes : List Char) : CString := (cstr bytes).takeWhile (· ≠ '\n')

lemma nul_notMem_firstLine (bytes : List Char) : '\x00' ∉ firstLine bytes :=
  fun h => nul_notMem_cstr bytes (List.takeWhile_subset _ h)

/-- A text without a newline stands before the first line. -/
lemma firstLine_append {text : List Char} (hnul : '\x00' ∉ text) (hnewline : '\n' ∉ text)
    (bytes : List Char) : firstLine (text ++ bytes) = text ++ firstLine bytes := by
  rw [firstLine, cstr, takeWhile_ne_append hnul, takeWhile_ne_append hnewline]
  rfl

/-! ## Fixed-width integers -/

def longMin : ℤ := -2 ^ 63

def longMax : ℤ := 2 ^ 63 - 1

/-- Conversion to `int`: the low 32 bits, read as a signed number. -/
def toInt32 (x : ℤ) : ℤ := Int.bmod x (2 ^ 32)

/-- Conversion to `unsigned long`: the low 64 bits. -/
def toUInt64 (x : ℤ) : ℕ := (x % 2 ^ 64).toNat

lemma toInt32_eq_self {x : ℤ} (hlo : -2 ^ 31 ≤ x) (hhi : x < 2 ^ 31) : toInt32 x = x := by
  unfold toInt32
  rw [Int.bmod_eq_of_le] <;> omega

lemma toInt32_def (x : ℤ) : toInt32 x =
    if x % 4294967296 < 2147483648 then x % 4294967296 else x % 4294967296 - 4294967296 := rfl

lemma toInt32_bounds (x : ℤ) : -2 ^ 31 ≤ toInt32 x ∧ toInt32 x < 2 ^ 31 := by
  have hlo := Int.le_bmod (x := x) (m := 2 ^ 32) (by decide)
  have hhi := Int.bmod_lt (x := x) (m := 2 ^ 32) (by decide)
  unfold toInt32
  omega

lemma toUInt64_eq_self_iff {x : ℤ} (h : x < 2 ^ 64) : (toUInt64 x : ℤ) = x ↔ 0 ≤ x := by
  unfold toUInt64
  omega

/-! ## Reading numbers -/

/-- `isspace` in the C locale. -/
def isSpace (c : Char) : Bool :=
  c == ' ' || c == '\t' || c == '\n' || c == '\x0b' || c == '\x0c' || c == '\r'

/-- The number written by the digits a text begins with, zero when there are none. -/
def textNat (s : CString) : ℕ := Nat.ofDigitChars 10 (s.takeWhile Char.isDigit) 0

/-- The integer a text begins with, after blanks and an optional sign. -/
def textInt (s : CString) : ℤ :=
  match s.dropWhile isSpace with
  | '-' :: r => -(textNat r : ℤ)
  | '+' :: r => textNat r
  | r => textNat r

/-- `strtol(s, NULL, 10)`: out of range values saturate. -/
def strtol (s : CString) : ℤ := max longMin (min longMax (textInt s))

/-- `atol` and, where `long` has 64 bits, `atoll`. -/
def atol (s : CString) : ℤ := strtol s

/-- `atoi`: the `int` conversion of what `strtol` returns. -/
def atoi (s : CString) : ℤ := toInt32 (strtol s)

lemma strtol_bounds (s : CString) : longMin ≤ strtol s ∧ strtol s ≤ longMax := by
  unfold strtol longMin longMax
  omega

lemma strtol_of_range {s : CString} (hlo : longMin ≤ textInt s) (hhi : textInt s ≤ longMax) :
    strtol s = textInt s := by
  unfold strtol
  omega

lemma atoi_bounds (s : CString) : -2 ^ 31 ≤ atoi s ∧ atoi s < 2 ^ 31 :=
  toInt32_bounds _

@[simp] lemma strtol_nil : strtol [] = 0 := by decide

/-- A character that stands neither in a number nor in the blanks before it. -/
def EndsNumeral (c : Char) : Prop := isSpace c = false ∧ c.isDigit = false ∧ c ≠ '-' ∧ c ≠ '+'

instance (c : Char) : Decidable (EndsNumeral c) := inferInstanceAs (Decidable (_ ∧ _))

lemma textNat_append_cons {c : Char} (hc : c.isDigit = false) (s rest : CString) :
    textNat (s ++ c :: rest) = textNat s := by
  have htake : (s ++ c :: rest).takeWhile Char.isDigit = s.takeWhile Char.isDigit := by
    induction s with
    | nil => simp [hc]
    | cons d s ih => simp only [List.cons_append, List.takeWhile_cons, ih]
  rw [textNat, htake, textNat]

lemma textInt_append_cons {c : Char} (hc : EndsNumeral c) (s rest : CString) :
    textInt (s ++ c :: rest) = textInt s := by
  obtain ⟨hspace, hdigit, hminus, hplus⟩ := hc
  induction s with
  | nil =>
    unfold textInt
    rw [List.nil_append, List.dropWhile_cons_of_neg (by simp [hspace])]
    split
    · next heq => exact absurd (List.cons.inj heq).1 hminus
    · next heq => exact absurd (List.cons.inj heq).1 hplus
    · exact congrArg Nat.cast (textNat_append_cons hdigit [] rest)
  | cons d s ih =>
    cases hd : isSpace d with
    | true =>
      unfold textInt at ih ⊢
      rw [List.cons_append, List.dropWhile_cons_of_pos hd, List.dropWhile_cons_of_pos hd]
      exact ih
    | false =>
      unfold textInt
      rw [List.cons_append, List.dropWhile_cons_of_neg (by simp [hd]),
        List.dropWhile_cons_of_neg (by simp [hd])]
      split
      · next heq =>
        cases heq
        exact congrArg (fun n : ℕ => -(n : ℤ)) (textNat_append_cons hdigit s rest)
      · next heq =>
        cases heq
        exact congrArg Nat.cast (textNat_append_cons hdigit s rest)
      · next hminus' hplus' =>
        split
        · next heq =>
          cases heq
          exact absurd rfl (hminus' _)
        · next heq =>
          cases heq
          exact absurd rfl (hplus' _)
        · exact congrArg Nat.cast (textNat_append_cons hdigit (d :: s) rest)

/-- What is behind a terminator does not count for the number before it. -/
lemma textInt_cstr (s : List Char) : textInt (cstr s) = textInt s := by
  obtain ⟨rest, hrest⟩ := prefix_cstr_append_nul s
  have hcut := textInt_append_cons (c := '\x00') (by decide) (cstr s) rest
  rw [← List.singleton_append, ← List.append_assoc, hrest,
    textInt_append_cons (by decide) s []] at hcut
  exact hcut.symm

/-! ## Writing numbers -/

/-- The decimal digits of a natural number. -/
def printNat (n : ℕ) : CString := Nat.toDigits 10 n

/-- The text `%d` (or `%ld`) prints. -/
def printInt (x : ℤ) : CString :=
  if x < 0 then '-' :: printNat x.natAbs else printNat x.natAbs

/-- The text `%lu` prints for a `long`: its bits read as unsigned. -/
def printULong (x : ℤ) : CString := printNat (toUInt64 x)

lemma printNat_ne_nil (n : ℕ) : printNat n ≠ [] := Nat.toDigits_ne_nil

lemma isDigit_of_mem_printNat {n : ℕ} {c : Char} (h : c ∈ printNat n) : c.isDigit = true :=
  Nat.isDigit_of_mem_toDigits (by decide) (by decide) h

lemma not_mem_printNat {c : Char} (hc : c.isDigit = false) (n : ℕ) : c ∉ printNat n := by
  intro h
  rw [isDigit_of_mem_printNat h] at hc
  exact Bool.noConfusion hc

lemma not_mem_printULong {c : Char} (hc : c.isDigit = false) (x : ℤ) : c ∉ printULong x :=
  not_mem_printNat hc _

@[simp] lemma printInt_natCast (n : ℕ) : printInt n = printNat n := by
  unfold printInt
  rw [if_neg (by omega), Int.natAbs_natCast]

lemma mem_printInt {x : ℤ} {c : Char} (h : c ∈ printInt x) : c = '-' ∨ c.isDigit = true := by
  unfold printInt at h
  split at h
  · rcases List.mem_cons.mp h with rfl | h
    · exact Or.inl rfl
    · exact Or.inr (isDigit_of_mem_printNat h)
  · exact Or.inr (isDigit_of_mem_printNat h)

/-- A character that is neither a digit nor a minus sign does not occur in a printed number. -/
lemma not_mem_printInt {c : Char} (hd : c.isDigit = false) (hm : c ≠ '-') (x : ℤ) :
    c ∉ printInt x := by
  intro h
  rcases mem_printInt h with rfl | h
  · exact hm rfl
  · rw [hd] at h
    exact Bool.noConfusion h

/-- The text `rest` does not continue a number: it is empty or begins with a non-digit. -/
def EndsNumber (rest : CString) : Prop := ∀ c ∈ rest.head?, c.isDigit = false

@[simp] lemma endsNumber_nil : EndsNumber [] := by simp [EndsNumber]

@[simp] lemma endsNumber_cons {c : Char} {rest : CString} :
    EndsNumber (c :: rest) ↔ c.isDigit = false := by simp [EndsNumber]

lemma takeWhile_digits_append {digits : CString} (hdigits : ∀ c ∈ digits, c.isDigit = true)
    {rest : CString} (hr : EndsNumber rest) :
    (digits ++ rest).takeWhile Char.isDigit = digits := by
  rw [List.takeWhile_append_of_pos hdigits]
  cases rest with
  | nil => simp
  | cons c r => simp [endsNumber_cons.mp hr]

lemma takeWhile_printNat_append (n : ℕ) {rest : CString} (hr : EndsNumber rest) :
    (printNat n ++ rest).takeWhile Char.isDigit = printNat n :=
  takeWhile_digits_append (fun _ hc => isDigit_of_mem_printNat hc) hr

lemma textNat_printNat_append (n : ℕ) {rest : CString} (hr : EndsNumber rest) :
    textNat (printNat n ++ rest) = n := by
  rw [textNat, takeWhile_printNat_append n hr, printNat, Nat.ofDigitChars_ten_toDigits]

lemma isSpace_of_isDigit {c : Char} (h : c.isDigit = true) : isSpace c = false := by
  by_contra hc
  simp only [Bool.not_eq_false, isSpace, Bool.or_eq_true, beq_iff_eq] at hc
  rcases hc with ((((rfl | rfl) | rfl) | rfl) | rfl) | rfl <;> simp at h

/-- A text that begins with a digit reads as the number its digits write. -/
lemma textInt_of_isDigit {c : Char} {s : CString} (h : c.isDigit = true) :
    textInt (c :: s) = textNat (c :: s) := by
  have hd : (c :: s).dropWhile isSpace = c :: s := by
    simp [isSpace_of_isDigit h]
  unfold textInt
  rw [hd]
  split
  · next heq => simp only [List.cons.injEq] at heq; rw [heq.1] at h; simp at h
  · next heq => simp only [List.cons.injEq] at heq; rw [heq.1] at h; simp at h
  · rfl

/-- Digits followed by a text that does not continue them read as the number they write. -/
lemma textInt_digits_append {digits : CString} (hne : digits ≠ [])
    (hdigits : ∀ c ∈ digits, c.isDigit = true) {rest : CString} (hr : EndsNumber rest) :
    textInt (digits ++ rest) = textNat digits := by
  obtain ⟨c, r, rfl⟩ := List.exists_cons_of_ne_nil hne
  rw [List.cons_append, textInt_of_isDigit (hdigits c List.mem_cons_self), ← List.cons_append,
    textNat, textNat, takeWhile_digits_append hdigits hr, List.takeWhile_eq_self_iff.mpr hdigits]

lemma textInt_printNat_append (n : ℕ) {rest : CString} (hr : EndsNumber rest) :
    textInt (printNat n ++ rest) = n := by
  have h := textNat_printNat_append n endsNumber_nil
  rw [List.append_nil] at h
  rw [textInt_digits_append (printNat_ne_nil n) (fun c hc => isDigit_of_mem_printNat hc) hr, h]

lemma isDigit_of_mem_leftpad {width n : ℕ} {c : Char} (h : c ∈ (printNat n).leftpad width '0') :
    c.isDigit = true := by
  rcases List.mem_append.mp h with hzero | hdigit
  · rw [List.eq_of_mem_replicate hzero]
    decide
  · exact isDigit_of_mem_printNat hdigit

/-- Zeros in front do not change a number. -/
lemma textNat_leftpad (width n : ℕ) : textNat ((printNat n).leftpad width '0') = n := by
  rw [textNat, List.takeWhile_eq_self_iff.mpr fun _ => isDigit_of_mem_leftpad, List.leftpad,
    Nat.ofDigitChars_append,
    Nat.ofDigitChars_replicate_zero, Nat.mul_zero, printNat, Nat.ofDigitChars_ten_toDigits]

/-- **The round trip.** A printed number followed by a text that does not continue it reads
back as itself. -/
lemma textInt_printInt_append (x : ℤ) {rest : CString} (hr : EndsNumber rest) :
    textInt (printInt x ++ rest) = x := by
  unfold printInt
  split
  · next hneg =>
    have h : textInt ('-' :: printNat x.natAbs ++ rest) = -(x.natAbs : ℤ) := by
      change -((textNat (printNat x.natAbs ++ rest) : ℕ) : ℤ) = _
      rw [textNat_printNat_append _ hr]
    rw [h]
    omega
  · rw [textInt_printNat_append _ hr]
    omega

lemma printInt_injective : Function.Injective printInt := by
  intro x y h
  have hx := textInt_printInt_append x endsNumber_nil
  rwa [h, textInt_printInt_append y endsNumber_nil, eq_comm] at hx

lemma strtol_printInt_append {x : ℤ} (hlo : longMin ≤ x) (hhi : x ≤ longMax) {rest : CString}
    (hr : EndsNumber rest) : strtol (printInt x ++ rest) = x := by
  have h := textInt_printInt_append x hr
  rw [strtol_of_range (by rw [h]; exact hlo) (by rw [h]; exact hhi), h]

lemma atoi_printInt_append {x : ℤ} (hlo : -2 ^ 31 ≤ x) (hhi : x < 2 ^ 31) {rest : CString}
    (hr : EndsNumber rest) : atoi (printInt x ++ rest) = x := by
  have h : strtol (printInt x ++ rest) = x := by
    refine strtol_printInt_append ?_ ?_ hr <;> simp only [longMin, longMax] <;> omega
  rw [atoi, h, toInt32_eq_self hlo hhi]

/-- An `int` printed with `%d` reads back as itself. -/
lemma atoi_printInt {x : ℤ} (hlo : -2 ^ 31 ≤ x) (hhi : x < 2 ^ 31) : atoi (printInt x) = x := by
  have h := atoi_printInt_append hlo hhi endsNumber_nil
  rwa [List.append_nil] at h

lemma textInt_printULong (x : ℤ) : textInt (printULong x) = toUInt64 x := by
  have := textInt_printNat_append (toUInt64 x) endsNumber_nil
  simpa [printULong] using this

/-- A number printed with `%lu` reads back as its unsigned value, clamped to a `long`. -/
lemma strtol_printULong (x : ℤ) : strtol (printULong x) = min longMax (toUInt64 x) := by
  rw [strtol, textInt_printULong]
  simp only [longMin, longMax]
  omega

/-- Ten digits and a sign. -/
lemma length_printInt {x : ℤ} (hlo : -10 ^ 10 < x) (hhi : x < 10 ^ 10) :
    (printInt x).length ≤ 11 := by
  have hdigits : (printNat x.natAbs).length ≤ 10 :=
    Nat.toDigits_length 10 _ 10 (by decide) (by omega)
  unfold printInt
  split_ifs
  · rw [List.length_cons]
    omega
  · omega

/-- A `long` takes at most 20 digits. -/
lemma length_printULong (x : ℤ) : (printULong x).length ≤ 20 := by
  have hlt : toUInt64 x < 10 ^ 20 := by
    unfold toUInt64
    omega
  exact Nat.toDigits_length 10 _ 20 (by decide) hlt

/-! ## Cutting a text at a character -/

/-- The text before the first `sep` and the text after it; nothing when `sep` is absent.
This is what a `strchr` followed by overwriting the character found leaves. -/
def cutAt (sep : Char) : CString → Option (CString × CString)
  | [] => none
  | c :: s =>
    if c = sep then some ([], s)
    else (cutAt sep s).map fun p => (c :: p.1, p.2)

lemma cutAt_append {sep : Char} {a : CString} (h : sep ∉ a) (b : CString) :
    cutAt sep (a ++ sep :: b) = some (a, b) := by
  induction a with
  | nil => simp [cutAt]
  | cons c a ih =>
    have hc : c ≠ sep := fun e => h (by simp [e])
    have ha : sep ∉ a := fun e => h (List.mem_cons_of_mem _ e)
    simp [cutAt, hc, ih ha]

lemma cutAt_eq_some_iff {sep : Char} {s a b : CString} :
    cutAt sep s = some (a, b) ↔ s = a ++ sep :: b ∧ sep ∉ a := by
  constructor
  · intro h
    induction s generalizing a with
    | nil => cases h
    | cons c s ih =>
      unfold cutAt at h
      split_ifs at h with hc
      · cases h
        exact ⟨by rw [hc, List.nil_append], List.not_mem_nil⟩
      · obtain ⟨⟨a', b'⟩, hcut, hab⟩ := Option.map_eq_some_iff.mp h
        cases hab
        obtain ⟨hs, hsep⟩ := ih hcut
        refine ⟨by rw [hs, List.cons_append], ?_⟩
        rw [List.mem_cons, not_or]
        exact ⟨fun h => hc h.symm, hsep⟩
  · rintro ⟨rfl, hsep⟩
    exact cutAt_append hsep b

/-- What `%s` prints for a pointer: the text it points to, or, for NULL, the text `null`; none for
it is a use of NULL. -/
def printPointer (null : Option CString) : Option CString → Option CString
  | some text => some text
  | none => null

/-- What the C library prints for NULL. -/
def libcNull : Option CString := some "(null)".toList

lemma printPointer_some (null : Option CString) (text : CString) :
    printPointer null (some text) = some text := rfl

lemma printPointer_libcNull (text : Option CString) :
    printPointer libcNull text = some (text.getD "(null)".toList) := by
  cases text <;> rfl

lemma printPointer_isSome_iff {null text : Option CString} :
    (printPointer null text).isSome ↔ (null = none → text.isSome) := by
  cases null <;> cases text <;> simp [printPointer]

/-! ## Scanning a text -/

/-- Characters of a `sscanf` format that have to stand in the text, neither blanks nor `%`. -/
def scanLiteral (format text : CString) : Option CString :=
  if format.isPrefixOf text then some (text.drop format.length) else none

/-- The conversion `%d` of `sscanf`: the value it stores, and the text left to scan. -/
def scanInt (text : CString) : Option (ℤ × CString) :=
  let digits := match text.dropWhile isSpace with
    | '-' :: r => r
    | '+' :: r => r
    | r => r
  if digits.takeWhile Char.isDigit = [] then none
  else some (atoi text, digits.dropWhile Char.isDigit)

lemma scanLiteral_eq_some_iff {format text rest : CString} :
    scanLiteral format text = some rest ↔ text = format ++ rest := by
  unfold scanLiteral
  split_ifs with hp
  · obtain ⟨t, rfl⟩ := List.isPrefixOf_iff_prefix.mp hp
    simp
  · refine iff_of_false (by simp) ?_
    rintro rfl
    exact hp (List.isPrefixOf_iff_prefix.mpr (List.prefix_append _ _))

/-- Digits are scanned as the number they write, if an `int` holds it. -/
lemma scanInt_digits_append {digits : CString} (hne : digits ≠ [])
    (hdigits : ∀ c ∈ digits, c.isDigit = true) (hint : textNat digits < 2 ^ 31)
    {rest : CString} (hr : EndsNumber rest) :
    scanInt (digits ++ rest) = some ((textNat digits : ℤ), rest) := by
  have hvalue : atoi (digits ++ rest) = textNat digits := by
    have htext := textInt_digits_append hne hdigits hr
    rw [atoi, strtol_of_range] <;> rw [htext]
    · exact toInt32_eq_self (by omega) (by omega)
    · unfold longMin
      omega
    · unfold longMax
      omega
  have htake := takeWhile_digits_append hdigits hr
  have hdrop : (digits ++ rest).dropWhile Char.isDigit = rest := by
    have hall := List.takeWhile_append_dropWhile (p := Char.isDigit) (l := digits ++ rest)
    rw [htake] at hall
    exact List.append_cancel_left hall
  obtain ⟨c, r, rfl⟩ := List.exists_cons_of_ne_nil hne
  have hc := hdigits c List.mem_cons_self
  have hspace : ((c :: r) ++ rest).dropWhile isSpace = (c :: r) ++ rest := by
    simp [isSpace_of_isDigit hc]
  have hsign : c ≠ '-' ∧ c ≠ '+' := by
    constructor <;> rintro rfl <;> exact absurd hc (by decide)
  unfold scanInt
  rw [hspace, hvalue]
  simp only [List.cons_append] at htake hdrop ⊢
  split
  · next heq => exact absurd (List.cons.inj heq).1 hsign.1
  · next heq => exact absurd (List.cons.inj heq).1 hsign.2
  · rw [htake, hdrop]
    simp

/-! ## Searching a text -/

/-- `strstr(haystack, needle) != NULL`. -/
def strstr : (haystack needle : CString) → Bool
  | [], needle => needle.isEmpty
  | c :: haystack, needle => needle.isPrefixOf (c :: haystack) || strstr haystack needle

lemma strstr_iff {haystack needle : CString} :
    strstr haystack needle = true ↔ needle <:+: haystack := by
  induction haystack with
  | nil => simp [strstr]
  | cons c haystack ih =>
    rw [strstr, Bool.or_eq_true, List.isPrefixOf_iff_prefix, ih, List.infix_cons_iff]

/-- `strstr`, as the offset of the occurrence it finds. -/
def strstrAt : (haystack needle : CString) → Option ℕ
  | [], needle => if needle.isEmpty then some 0 else none
  | c :: haystack, needle =>
    if needle.isPrefixOf (c :: haystack) then some 0
    else (strstrAt haystack needle).map (· + 1)

lemma strstrAt_eq_zero {haystack needle : CString} (h : needle <+: haystack) :
    strstrAt haystack needle = some 0 := by
  cases haystack with
  | nil => simp [strstrAt, List.prefix_nil.mp h]
  | cons c haystack => rw [strstrAt, if_pos (List.isPrefixOf_iff_prefix.mpr h)]

lemma strstrAt_cons {haystack needle : CString} {c : Char} (h : ¬ needle <+: c :: haystack) :
    strstrAt (c :: haystack) needle = (strstrAt haystack needle).map (· + 1) := by
  rw [strstrAt, if_neg fun hp => h (List.isPrefixOf_iff_prefix.mp hp)]

/-- A text that the needle cannot begin in is skipped. -/
lemma strstrAt_append {before rest : CString} {first : Char} {needle : CString}
    (h : first ∉ before) :
    strstrAt (before ++ rest) (first :: needle) =
      (strstrAt rest (first :: needle)).map (· + before.length) := by
  induction before with
  | nil => simp
  | cons c before ih =>
    obtain ⟨hc, hbefore⟩ := not_or.mp (List.mem_cons.not.mp h)
    have hp : ¬ first :: needle <+: c :: (before ++ rest) := fun hp =>
      hc (List.cons_prefix_cons.mp hp).1
    rw [List.cons_append, strstrAt_cons hp, ih hbefore, Option.map_map]
    rfl

lemma strstrAt_of_notMem {haystack needle : CString} {first : Char} (h : first ∉ haystack) :
    strstrAt haystack (first :: needle) = none := by
  rw [← List.append_nil haystack, strstrAt_append h]
  rfl

/-! ## Letter case -/

/-- A text with every letter in lower case (`tolower` in the C locale). -/
def toLower (s : CString) : CString := s.map Char.toLower

lemma toLower_of_isDigit {c : Char} (h : c.isDigit = true) : c.toLower = c := by
  have hle : c.val.toNat ≤ 57 := by
    simp only [Char.isDigit, Bool.and_eq_true, decide_eq_true_eq, UInt32.le_iff_toNat_le] at h
    exact h.2
  have hlow : ¬ (c.val ≥ 'A'.val ∧ c.val ≤ 'Z'.val) := by
    rintro ⟨hge, -⟩
    have hge : 65 ≤ c.val.toNat := UInt32.le_iff_toNat_le.mp hge
    omega
  unfold Char.toLower
  rw [dif_neg hlow]

lemma toLower_eq_blank {c : Char} (h : c.toLower = ' ') : c = ' ' := by
  unfold Char.toLower at h
  split at h
  · next hc =>
    have hv := congrArg (fun c : Char => c.val.toNat) h
    simp [UInt32.le_iff_toNat_le] at hv hc
    omega
  · exact h

lemma blank_mem_toLower {s : CString} : ' ' ∈ toLower s ↔ ' ' ∈ s := by
  constructor
  · intro h
    obtain ⟨c, hc, hblank⟩ := List.mem_map.mp h
    rwa [toLower_eq_blank hblank] at hc
  · exact fun h => List.mem_map.mpr ⟨' ', h, rfl⟩

end CText
