import SerialChrono.Library.CText
import SerialChrono.Library.StreamReader

/-!
# Reading by lines (`fgets`)

`fgets` hands a stream over line by line, and a line that its buffer has no room for in pieces.
`reads_fgets_lines` says so for a text of lines that fit.
-/

namespace SerialChrono

open CText StreamReader

/-- `fgets` into `size` bytes: what it stores before the terminator, and what is left of the
input.  At the end of the input it stores nothing. -/
def fgets (size : ℕ) (stdin : List Char) : Option (List Char × List Char) :=
  if stdin = [] then none
  else
    let length := min (size - 1) ((stdin.takeWhile (· ≠ '\n')).length + 1)
    some (stdin.take length, stdin.drop length)

section

variable {size : ℕ} {stdin line rest : List Char}

lemma fgets_eq_none_iff : fgets size stdin = none ↔ stdin = [] := by
  unfold fgets
  split_ifs with hstdin
  · exact iff_of_true rfl hstdin
  · exact iff_of_false (by simp) hstdin

lemma length_of_fgets (h : fgets size stdin = some (line, rest)) : line.length ≤ size - 1 := by
  unfold fgets at h
  split_ifs at h
  cases h
  rw [List.length_take]
  omega

/-- A buffer of two bytes or more gets something off the stream. -/
lemma length_rest_of_fgets (hsize : 2 ≤ size) (h : fgets size stdin = some (line, rest)) :
    rest.length < stdin.length := by
  unfold fgets at h
  split_ifs at h with hstdin
  cases h
  rw [List.length_drop]
  have hpos := List.length_pos_iff.mpr hstdin
  omega

/-- A line that fits is read whole, with its newline. -/
lemma fgets_line (hline : '\n' ∉ line) (hsize : line.length + 2 ≤ size) :
    fgets size (line ++ '\n' :: rest) = some (line ++ ['\n'], rest) := by
  have hlength : min (size - 1)
      (((line ++ '\n' :: rest).takeWhile (· ≠ '\n')).length + 1) = (line ++ ['\n']).length := by
    rw [takeWhile_ne_append hline, List.takeWhile_cons_of_neg (by simp), List.append_nil,
      List.length_append]
    simp only [List.length_cons, List.length_nil]
    omega
  have hsplit : line ++ '\n' :: rest = (line ++ ['\n']) ++ rest := by simp
  unfold fgets
  rw [if_neg (by simp)]
  simp only [hlength]
  rw [hsplit, List.take_left, List.drop_left]

end

/-- A text of lines that fit into the buffer. -/
lemma reads_fgets_lines {size : ℕ} (lines : List (List Char))
    (hlines : ∀ line ∈ lines, '\n' ∉ line ∧ line.length + 2 ≤ size) :
    Reads (fgets size) (lines.flatMap (· ++ ['\n'])) (lines.map (· ++ ['\n'])) := by
  induction lines with
  | nil => exact .done rfl
  | cons line lines ih =>
    obtain ⟨hnewline, hfits⟩ := hlines line List.mem_cons_self
    refine .more ?_ (ih fun l hl => hlines l (List.mem_cons_of_mem _ hl))
    rw [List.flatMap_cons, List.append_assoc]
    exact fgets_line hnewline hfits

end SerialChrono
