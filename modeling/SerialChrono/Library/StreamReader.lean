import Mathlib.Tactic.Common

/-!
# Loops over a stream

A reader takes a piece off a stream, or finds its end.  `drain` is the loop
`while (reader(piece, stream)) step(piece)`, with a bound on its turns, and `Reads reader s pieces`
says which pieces a stream is handed over in.  `Reads.drain` is the rule for the loop: what it
leaves is the fold of the body over the pieces.
-/

namespace StreamReader

variable {S A B : Type*}

/-- The stream is handed over in these pieces, and then ends. -/
inductive Reads (reader : S → Option (A × S)) : S → List A → Prop
  | done {s : S} : reader s = none → Reads reader s []
  | more {s t : S} {a : A} {pieces : List A} :
    reader s = some (a, t) → Reads reader t pieces → Reads reader s (a :: pieces)

/-- The loop, nothing if the stream has not ended within `fuel` turns. -/
def drain (reader : S → Option (A × S)) (step : B → A → B) : (fuel : ℕ) → S → B → Option B
  | 0, _, _ => none
  | fuel + 1, s, b =>
    match reader s with
    | none => some b
    | some (a, t) => drain reader step fuel t (step b a)

variable {reader : S → Option (A × S)} {s : S} {pieces : List A}

lemma Reads.drain (h : Reads reader s pieces) (step : B → A → B) {fuel : ℕ}
    (hfuel : pieces.length < fuel) (b : B) :
    drain reader step fuel s b = some (pieces.foldl step b) := by
  induction h generalizing fuel b with
  | done hnone =>
    obtain ⟨fuel, rfl⟩ := Nat.exists_eq_succ_of_ne_zero (Nat.ne_zero_of_lt hfuel)
    rw [StreamReader.drain, hnone]
    rfl
  | more hsome _ ih =>
    obtain ⟨fuel, rfl⟩ := Nat.exists_eq_succ_of_ne_zero (Nat.ne_zero_of_lt hfuel)
    rw [StreamReader.drain, hsome]
    exact ih (Nat.lt_of_succ_lt_succ hfuel) _

/-- A stream is handed over in one way. -/
lemma Reads.unique (h : Reads reader s pieces) {others : List A} (h' : Reads reader s others) :
    pieces = others := by
  induction h generalizing others with
  | done hnone =>
    cases h' with
    | done _ => rfl
    | more hsome _ => cases hnone.symm.trans hsome
  | more hsome _ ih =>
    cases h' with
    | done hnone => cases hnone.symm.trans hsome
    | more hsome' hrest =>
      cases hsome.symm.trans hsome'
      rw [ih hrest]

/-- A stream that gets shorter with every piece ends after at most as many as it is long. -/
lemma exists_reads (size : S → ℕ)
    (hshorter : ∀ {s a t}, reader s = some (a, t) → size t < size s) (s : S) :
    ∃ pieces, Reads reader s pieces ∧ pieces.length ≤ size s := by
  induction hn : size s using Nat.strongRecOn generalizing s with
  | ind n ih =>
    cases hread : reader s with
    | none => exact ⟨[], .done hread, Nat.zero_le _⟩
    | some r =>
      obtain ⟨a, t⟩ := r
      have hlt := hshorter hread
      obtain ⟨pieces, hpieces, hlength⟩ := ih (size t) (hn ▸ hlt) t rfl
      exact ⟨a :: pieces, .more hread hpieces, by simp only [List.length_cons]; omega⟩

end StreamReader
