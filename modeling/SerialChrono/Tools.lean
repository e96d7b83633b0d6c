import SerialChrono.Library.CText
import Mathlib.Data.List.Infix

/-!
# String tools (`sc_tools.c`)

`explode` cuts a line into the tokens every handler works on, and `stripos` is the search for a
word in a line whatever its letter case.  Each is given as the loop of the source and then
characterised: `explode` is `List.splitOn` as long as the tokens fit in the array of 32
(`explode_eq`), and `stripos` finds the needle exactly when the upper-case needle is a part of
the upper-case haystack (`stripos_nonneg_iff`).
-/

namespace SerialChrono

open CText

/-- The tokens of a line, `tokens[0]` first. -/
abbrev Tokens := List CString

/-! ## `explode` -/

/-- The loop of `explode`: `cur` is the token being read and `res` the ones stored.  It stops
after storing a token at index 32. -/
def explodeLoop (separator : Char) : (rest cur : CString) → (res : Tokens) → Tokens
  | [], cur, res => res ++ [cur]
  | c :: rest, cur, res =>
    if c ≠ separator then explodeLoop separator rest (cur ++ [c]) res
    else if 32 < res.length + 1 then res ++ [cur]
    else explodeLoop separator rest [] (res ++ [cur])

/-- `explode`.  The array has 32 entries: nothing is defined when a token is stored past it. -/
def explode (line : CString) (separator : Char) : Option Tokens :=
  let res := explodeLoop separator line [] []
  if res.length ≤ 32 then some res else none

/-- The loop splits the line, or has already stored too many tokens. -/
lemma explodeLoop_spec (separator : Char) (rest cur : CString) (res : Tokens)
    (hcur : separator ∉ cur) (hres : res.length ≤ 32) :
    explodeLoop separator rest cur res = res ++ (cur ++ rest).splitOn separator ∨
      32 < (explodeLoop separator rest cur res).length ∧
        32 < (res ++ (cur ++ rest).splitOn separator).length := by
  induction rest generalizing cur res with
  | nil =>
    left
    rw [explodeLoop, List.append_nil, List.splitOn_eq_singleton hcur]
  | cons c rest ih =>
    by_cases hc : c = separator
    · subst hc
      have hsplit := List.splitOn_append_cons_self_of_not_mem hcur rest
      by_cases hfull : 32 < res.length + 1
      · right
        simp only [explodeLoop, ne_eq, not_true_eq_false, if_false, if_pos hfull, hsplit,
          List.length_append, List.length_cons, List.length_nil]
        omega
      · have hnext := ih [] (res ++ [cur]) (by simp) (by simp; omega)
        simp only [explodeLoop, ne_eq, not_true_eq_false, if_false, if_neg hfull, hsplit]
        simpa using hnext
    · have hnext := ih (cur ++ [c]) res (by simp [hcur, Ne.symm hc]) hres
      simp only [explodeLoop, ne_eq, hc, not_false_eq_true, if_true]
      simpa using hnext

/-- `explode` splits the line at every separator, if there are at most 31 of them. -/
lemma explode_eq (line : CString) (separator : Char) :
    explode line separator =
      if (line.splitOn separator).length ≤ 32 then some (line.splitOn separator) else none := by
  have h := explodeLoop_spec separator line [] [] (by simp) (by simp)
  simp only [List.nil_append] at h
  unfold explode
  rcases h with h | ⟨hlong, hsplit⟩
  · rw [h]
  · rw [if_neg (by omega), if_neg (by omega)]

lemma intercalate_eq_append_flatMap (sep : Char) (head : CString) (tail : Tokens) :
    [sep].intercalate (head :: tail) = head ++ tail.flatMap fun token => sep :: token := by
  induction tail generalizing head with
  | nil => simp
  | cons t tail ih => simp [List.intercalate_cons_cons, ih t]

lemma separator_notMem_splitOn {separator : Char} {line : CString} :
    ∀ token ∈ line.splitOn separator, separator ∉ token := by
  induction line with
  | nil => simp
  | cons c line ih =>
    rw [List.splitOn_cons_eq_if_modifyHead]
    rcases hsplit : line.splitOn separator with - | ⟨first, rest⟩
    · exact absurd hsplit (List.splitOn_ne_nil separator line)
    rw [hsplit] at ih
    obtain ⟨hfirst, hrest⟩ := List.forall_mem_cons.mp ih
    split_ifs with hc
    · exact List.forall_mem_cons.mpr ⟨List.not_mem_nil, ih⟩
    · refine List.forall_mem_cons.mpr ⟨fun hmem => ?_, hrest⟩
      rcases List.mem_cons.mp hmem with heq | hmem
      · exact hc (beq_iff_eq.mpr heq.symm)
      · exact hfirst hmem

/-! ## `stripos` -/

/-- A text with every letter in upper case (`toupper` in the C locale). -/
def toUpper (s : CString) : CString := s.map Char.toUpper

/-- The inner loop of `stripos`: the haystack begins with the needle. -/
def matchesAt : (haystack needle : CString) → Bool
  | _, [] => true
  | [], _ :: _ => false
  | h :: hs, n :: ns => h.toUpper == n.toUpper && matchesAt hs ns

/-- The outer loop of `stripos`, `offset` characters into the haystack. -/
def striposFrom (needle : CString) : (haystack : CString) → (offset : ℕ) → ℤ
  | [], _ => -1
  | c :: cs, offset =>
    if matchesAt (c :: cs) needle then offset + 1 else striposFrom needle cs (offset + 1)

/-- `stripos`: one plus the offset of the needle in the haystack, or -1. -/
def stripos (haystack needle : CString) : ℤ := striposFrom needle haystack 0

lemma matchesAt_iff (haystack needle : CString) :
    matchesAt haystack needle = true ↔ toUpper needle <+: toUpper haystack := by
  induction haystack generalizing needle with
  | nil => cases needle <;> simp [matchesAt, toUpper]
  | cons h hs ih =>
    cases needle with
    | nil => simp [matchesAt, toUpper]
    | cons n ns =>
      simp only [matchesAt, Bool.and_eq_true, beq_iff_eq, ih, toUpper, List.map_cons,
        List.cons_prefix_cons]
      exact and_congr_left' eq_comm

lemma striposFrom_nonneg_iff {needle : CString} (hn : needle ≠ []) (haystack : CString)
    (offset : ℕ) :
    0 ≤ striposFrom needle haystack offset ↔ toUpper needle <:+: toUpper haystack := by
  induction haystack generalizing offset with
  | nil => simp [striposFrom, toUpper, hn]
  | cons c cs ih =>
    have hcons : toUpper needle <:+: toUpper (c :: cs) ↔
        toUpper needle <+: toUpper (c :: cs) ∨ toUpper needle <:+: toUpper cs := by
      simp only [toUpper, List.map_cons]
      exact List.infix_cons_iff
    rw [striposFrom, hcons, ← matchesAt_iff]
    by_cases hm : matchesAt (c :: cs) needle = true
    · simp only [hm, if_true, true_or, iff_true]
      omega
    · simp only [hm, if_false, false_or, ih, Bool.false_eq_true]

/-- `stripos` finds a non-empty needle exactly when it occurs, whatever the letter case. -/
lemma stripos_nonneg_iff {needle : CString} (hn : needle ≠ []) (haystack : CString) :
    0 ≤ stripos haystack needle ↔ toUpper needle <:+: toUpper haystack :=
  striposFrom_nonneg_iff hn haystack 0

end SerialChrono
