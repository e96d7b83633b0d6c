import SerialChrono.Library.CText

/-!
# Whole numbers in JavaScript

A script computes with numbers of 53 significant bits.  `roundInt` is the number nearest to an
integer, the even one of two as near, and `add` and `sub` are the operations on whole numbers.
Up to `2 ^ 53` they are those of the integers (`roundInt_eq_self`).  `NumberText` is the conversion
of a number to a text, which is the decimal one there.
-/

namespace JsNumber

open CText

/-- The significand of a natural number, and the power of two it counts. -/
def scale (n : ℕ) : ℕ := Nat.log2 n - 52

/-- The nearest natural number with 53 significant bits; ties go to the even significand. -/
def roundNat (n : ℕ) : ℕ :=
  let unit := 2 ^ scale n
  let q := n / unit
  let r := n % unit
  (if unit < 2 * r ∨ unit = 2 * r ∧ q % 2 = 1 then q + 1 else q) * unit

/-- The number nearest to an integer. -/
def roundInt (x : ℤ) : ℤ := if x < 0 then -(roundNat x.natAbs : ℤ) else roundNat x.natAbs

def add (x y : ℤ) : ℤ := roundInt (x + y)

def sub (x y : ℤ) : ℤ := roundInt (x - y)

/-- The integers that no operation rounds. -/
def Safe (x : ℤ) : Prop := -2 ^ 53 ≤ x ∧ x ≤ 2 ^ 53

instance (x : ℤ) : Decidable (Safe x) := inferInstanceAs (Decidable (_ ∧ _))

lemma roundNat_eq_self {n : ℕ} (h : n ≤ 2 ^ 53) : roundNat n = n := by
  rcases h.lt_or_eq with hlt | rfl
  · have hscale : scale n = 0 := by
      rcases Nat.eq_zero_or_pos n with rfl | hpos
      · rfl
      · have hlog : Nat.log2 n < 53 := (Nat.log2_lt hpos.ne').mpr hlt
        unfold scale
        omega
    simp [roundNat, hscale, Nat.mod_one]
  · decide

lemma roundInt_eq_self {x : ℤ} (h : Safe x) : roundInt x = x := by
  obtain ⟨hlo, hhi⟩ := h
  unfold roundInt
  rw [roundNat_eq_self (by omega)]
  split <;> omega

lemma add_eq {x y : ℤ} (h : Safe (x + y)) : add x y = x + y := roundInt_eq_self h

lemma sub_eq {x y : ℤ} (h : Safe (x - y)) : sub x y = x - y := roundInt_eq_self h

/-- The text of a number, as `String` gives it. -/
structure NumberText where
  text : ℤ → CString
  text_of_safe {x : ℤ} : Safe x → text x = printInt x

/-- The decimal text of every number. -/
def NumberText.decimal : NumberText := ⟨printInt, fun _ => rfl⟩

end JsNumber
