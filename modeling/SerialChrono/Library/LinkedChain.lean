import Mathlib.Tactic.Common

/-!
# Singly linked chains in a heap

A heap maps addresses to cells, each holding a value and the address of the next cell.  New
cells are taken at `top`, above which nothing is allocated; that is the invariant `fresh`
carries, and it is what makes an allocation leave every existing chain alone.

`Path h p path q` says that following `next` from `p` visits the cells `path`, given as
addresses with their values, and arrives at `q`.  The lemmas are the ones a verification of a
linked structure needs: frames for allocation (`Path.alloc`), the last cell of a complete
chain (`Path.snoc_inv`), and the value of a loop that walks a chain (`foldChain_eq`), which
also shows that a loop bounded by the number of allocated cells never runs out.
-/

namespace LinkedChain

variable {α β : Type*}

/-- A cell: its value and the address of the next cell, if any. -/
structure Cell (α : Type*) where
  val : α
  next : Option ℕ

/-- A heap of cells.  `top` is the next address to hand out. -/
structure Heap (α : Type*) where
  cell : ℕ → Option (Cell α)
  top : ℕ
  fresh : ∀ a, top ≤ a → cell a = none

namespace Heap

/-- The heap with nothing allocated. -/
def empty : Heap α := ⟨fun _ => none, 0, fun _ _ => rfl⟩

/-- Store a cell at a fresh address. -/
def alloc (h : Heap α) (c : Cell α) : Heap α where
  cell a := if a = h.top then some c else h.cell a
  top := h.top + 1
  fresh a ha := by
    rw [if_neg (by omega)]
    exact h.fresh a (by omega)

/-- Release the cell at `a`. -/
def free (h : Heap α) (a : ℕ) : Heap α where
  cell b := if b = a then none else h.cell b
  top := h.top
  fresh b hb := by
    split
    · rfl
    · exact h.fresh b hb

@[simp] lemma alloc_top (h : Heap α) (c : Cell α) : (h.alloc c).top = h.top + 1 := rfl

@[simp] lemma alloc_cell_top (h : Heap α) (c : Cell α) : (h.alloc c).cell h.top = some c := by
  simp [alloc]

/-- A cell that exists is not the one the next allocation writes. -/
lemma alloc_cell_of_some {h : Heap α} {a : ℕ} {d : Cell α} (hd : h.cell a = some d)
    (c : Cell α) : (h.alloc c).cell a = some d := by
  have ha : a ≠ h.top := by
    rintro rfl
    rw [h.fresh _ (Nat.le_refl _)] at hd
    cases hd
  simp [alloc, ha, hd]

end Heap

/-- Following `next` from `p` visits `path` and arrives at `q`. -/
inductive Path (h : Heap α) : Option ℕ → List (ℕ × α) → Option ℕ → Prop
  | nil (p : Option ℕ) : Path h p [] p
  | cons {a : ℕ} {c : Cell α} {path : List (ℕ × α)} {q : Option ℕ} :
      h.cell a = some c → Path h c.next path q → Path h (some a) ((a, c.val) :: path) q

namespace Path

variable {h : Heap α} {p q : Option ℕ} {path : List (ℕ × α)}

/-- An allocation leaves a chain as it is. -/
lemma alloc (hp : Path h p path q) (c : Cell α) : Path (h.alloc c) p path q := by
  induction hp with
  | nil p => exact .nil p
  | cons hc _ ih => exact .cons (Heap.alloc_cell_of_some hc c) ih

/-- A new cell in front of a chain. -/
lemma alloc_cons (hp : Path h p path q) (v : α) :
    Path (h.alloc ⟨v, p⟩) (some h.top) ((h.top, v) :: path) q :=
  .cons (c := ⟨v, p⟩) (h.alloc_cell_top _) (hp.alloc _)

/-- A chain that visits nothing has its two ends equal. -/
lemma nil_inv (hp : Path h p [] q) : p = q := by
  cases hp
  rfl

lemma cons_inv {x : ℕ × α} (hp : Path h p (x :: path) q) :
    ∃ c, p = some x.1 ∧ h.cell x.1 = some c ∧ c.val = x.2 ∧ Path h c.next path q := by
  cases hp with
  | cons hc hrest => exact ⟨_, rfl, hc, rfl, hrest⟩

/-- The last cell of a chain points to where the chain arrives. -/
lemma snoc_inv {x : ℕ × α} (hp : Path h p (path ++ [x]) q) :
    h.cell x.1 = some ⟨x.2, q⟩ := by
  induction path generalizing p with
  | nil =>
    obtain ⟨c, -, hc, hval, hrest⟩ := hp.cons_inv
    rw [hc, ← hval, ← hrest.nil_inv]
  | cons y path ih =>
    obtain ⟨c, -, -, -, hrest⟩ := hp.cons_inv
    exact ih hrest

/-- A complete chain starts nowhere exactly when it visits nothing. -/
lemma start_eq_none_iff (hp : Path h p path none) : p = none ↔ path = [] := by
  cases path with
  | nil => simp [hp.nil_inv]
  | cons x path =>
    obtain ⟨c, rfl, -⟩ := hp.cons_inv
    simp

end Path

/-- The loop `for (pt = p; pt; pt = pt->next) b = f(b, *pt)`, at most `fuel` times round. -/
def foldChain (h : Heap α) (f : β → α → β) : ℕ → Option ℕ → β → Option β
  | _, none, b => some b
  | 0, some _, _ => none
  | fuel + 1, some a, b =>
    match h.cell a with
    | none => none
    | some c => foldChain h f fuel c.next (f b c.val)

/-- The loop over a complete chain folds over its values, given enough rounds. -/
lemma foldChain_eq {h : Heap α} {f : β → α → β} {p : Option ℕ} {path : List (ℕ × α)}
    (hp : Path h p path none) {fuel : ℕ} (hfuel : path.length ≤ fuel) (b : β) :
    foldChain h f fuel p b = some ((path.map Prod.snd).foldl f b) := by
  induction path generalizing p fuel b with
  | nil =>
    rw [hp.nil_inv]
    cases fuel <;> rfl
  | cons x path ih =>
    obtain ⟨c, rfl, hc, hval, hrest⟩ := hp.cons_inv
    obtain ⟨fuel, rfl⟩ : ∃ n, fuel = n + 1 := ⟨fuel - 1, by simp at hfuel; omega⟩
    simp only [foldChain, hc, hval]
    exact ih hrest (by simpa using hfuel) _

end LinkedChain
