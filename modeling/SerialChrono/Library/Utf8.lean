import Mathlib.Tactic.Common
import Mathlib.Data.List.Basic

/-!
# UTF-8

Which sequences of bytes are the encoding of a text, a byte being a character below 256.  The
first byte of a character says how many follow and in which ranges (`followers`), so a sequence
is read with the ranges of the bytes still owed.  An ASCII character is never one of them: a text
may be cut before it (`utf8_append_cons_iff`).
-/

namespace Utf8

/-- The range of a byte. -/
abbrev Range := ℕ × ℕ

/-- The range of the bytes that are not the first of a character. -/
def tail : Range := (0x80, 0xBF)

/-- The bytes a first byte calls for. -/
def followers (first : ℕ) : Option (List Range) :=
  if first ≤ 0x7F then some []
  else if 0xC2 ≤ first ∧ first ≤ 0xDF then some [tail]
  else if first = 0xE0 then some [(0xA0, 0xBF), tail]
  else if first = 0xED then some [(0x80, 0x9F), tail]
  else if 0xE1 ≤ first ∧ first ≤ 0xEF then some [tail, tail]
  else if first = 0xF0 then some [(0x90, 0xBF), tail, tail]
  else if 0xF1 ≤ first ∧ first ≤ 0xF3 then some [tail, tail, tail]
  else if first = 0xF4 then some [(0x80, 0x8F), tail, tail]
  else none

/-- The bytes complete a character of which these are owed, and are characters from then on. -/
def completes : (owed : List Range) → List Char → Bool
  | owed, [] => owed.isEmpty
  | [], c :: s =>
    match followers c.toNat with
    | some owed => completes owed s
    | none => false
  | (lo, hi) :: owed, c :: s => decide (lo ≤ c.toNat ∧ c.toNat ≤ hi) && completes owed s

/-- The bytes are the encoding of a text. -/
def Valid (s : List Char) : Prop := completes [] s = true

instance (s : List Char) : Decidable (Valid s) := inferInstanceAs (Decidable (_ = true))

/-- No byte owed is an ASCII character. -/
lemma followers_ge {first : ℕ} {owed : List Range} (h : followers first = some owed) :
    ∀ r ∈ owed, 0x80 ≤ r.1 := by
  unfold followers at h
  split_ifs at h <;> cases h <;> simp [tail]

lemma completes_ascii {c : Char} (hc : c.toNat < 0x80) (s : List Char) :
    completes [] (c :: s) = completes [] s := by
  have hfollowers : followers c.toNat = some [] := if_pos (by omega)
  rw [completes, hfollowers]

/-- An ASCII character begins anew. -/
lemma completes_append_cons {c : Char} (hc : c.toNat < 0x80) (w s : List Char)
    {owed : List Range} (howed : ∀ r ∈ owed, 0x80 ≤ r.1) :
    completes owed (w ++ c :: s) = (completes owed w && completes [] s) := by
  induction w generalizing owed with
  | nil =>
    cases owed with
    | nil => simp [completes_ascii hc, completes]
    | cons r owed =>
      have hlow : ¬ r.1 ≤ c.toNat := by
        have := howed r List.mem_cons_self
        omega
      simp [completes, hlow]
  | cons d w ih =>
    cases owed with
    | nil =>
      rw [List.cons_append, completes, completes]
      cases hfollowers : followers d.toNat with
      | none => rfl
      | some owed => exact ih (followers_ge hfollowers)
    | cons r owed =>
      rw [List.cons_append, completes, completes, Bool.and_assoc,
        ih fun r' hr' => howed r' (List.mem_cons_of_mem r hr')]

/-- A text may be cut before an ASCII character. -/
theorem valid_append_cons_iff {c : Char} (hc : c.toNat < 0x80) (w s : List Char) :
    Valid (w ++ c :: s) ↔ Valid w ∧ Valid s := by
  rw [Valid, completes_append_cons hc w s (by simp), Bool.and_eq_true]
  rfl

lemma valid_ascii_append_iff {w : List Char} (hw : ∀ c ∈ w, c.toNat < 0x80) (s : List Char) :
    Valid (w ++ s) ↔ Valid s := by
  induction w with
  | nil => rfl
  | cons c w ih =>
    rw [List.cons_append, Valid, completes_ascii (hw c List.mem_cons_self)]
    exact ih fun d hd => hw d (List.mem_cons_of_mem c hd)

lemma valid_of_ascii {w : List Char} (hw : ∀ c ∈ w, c.toNat < 0x80) : Valid w := by
  have h := valid_ascii_append_iff hw []
  rw [List.append_nil] at h
  exact h.mpr rfl

end Utf8
