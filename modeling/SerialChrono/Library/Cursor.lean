import Mathlib.Order.Lattice
import Mathlib.Data.List.Pairwise

/-!
# Reading a list by a cursor

The entries of a list have keys, and these ascend.  A reader knows the list by its cursor alone:
it asks for what comes after the cursor (`after`), gets a beginning of that, and sets the cursor
to the last key it has seen (`advance`).  `after_eq_append` is the law of such readers: what came
after the cursor is what has been read, and then what comes after the new cursor.
-/

namespace Cursor

variable {α κ : Type*} [LinearOrder κ] (key : α → κ)

/-- The entries after a key. -/
def after (c : κ) (l : List α) : List α := l.filter fun a => c < key a

/-- The cursor after these entries. -/
def advance (c : κ) : List α → κ
  | [] => c
  | a :: as => advance (key a) as

lemma after_cons (c : κ) (a : α) (l : List α) :
    after key c (a :: l) = if c < key a then a :: after key c l else after key c l := by
  simp [after, List.filter_cons]

lemma mem_after {c : κ} {a : α} {l : List α} : a ∈ after key c l ↔ a ∈ l ∧ c < key a := by
  simp [after]

/-- All the entries are after a key that is below them. -/
lemma after_eq_self {c : κ} {l : List α} (h : ∀ a ∈ l, c < key a) : after key c l = l :=
  List.filter_eq_self.mpr fun a ha => decide_eq_true (h a ha)

variable {key}

/-- The first entry after the cursor is read. -/
lemma after_tail {l : List α} (hl : l.Pairwise fun a b => key a < key b) {c : κ} {a : α}
    {rest : List α} (h : after key c l = a :: rest) : after key (key a) l = rest := by
  induction l with
  | nil => cases h
  | cons b l ih =>
    obtain ⟨hb, hl⟩ := List.pairwise_cons.mp hl
    rw [after_cons] at h
    rw [after_cons]
    split_ifs at h with hc
    · cases h
      rw [if_neg (lt_irrefl _), after_eq_self key hb,
        after_eq_self key fun a ha => lt_trans hc (hb a ha)]
    · have ha : a ∈ after key c l := by
        rw [h]
        exact List.mem_cons_self
      rw [if_neg (lt_asymm (hb a ((mem_after key).mp ha).1))]
      exact ih hl h

/-- **A reader misses nothing and reads nothing twice.** What came after the cursor is what has
been read, and then what comes after the new cursor. -/
theorem after_eq_append {l : List α} (hl : l.Pairwise fun a b => key a < key b) {c : κ}
    {read : List α} (h : read <+: after key c l) :
    after key c l = read ++ after key (advance key c read) l := by
  induction read generalizing c with
  | nil => rfl
  | cons a read ih =>
    obtain ⟨rest, hrest⟩ := h
    have htail : after key (key a) l = read ++ rest := after_tail hl hrest.symm
    calc after key c l = a :: (read ++ rest) := hrest.symm
      _ = a :: after key (key a) l := by rw [htail]
      _ = a :: (read ++ after key (advance key (key a) read) l) :=
        congrArg (a :: ·) (ih ⟨rest, htail.symm⟩)

/-- The cursor does not go back. -/
theorem le_advance {l : List α} (hl : l.Pairwise fun a b => key a < key b) {c : κ}
    {read : List α} (h : read <+: after key c l) : c ≤ advance key c read := by
  induction read generalizing c with
  | nil => exact le_rfl
  | cons a read ih =>
    obtain ⟨rest, hrest⟩ := h
    have ha : a ∈ after key c l := by
      rw [← hrest]
      exact List.mem_cons_self
    have htail := after_tail hl hrest.symm
    exact le_trans (le_of_lt ((mem_after key).mp ha).2) (ih ⟨rest, htail.symm⟩)

end Cursor
