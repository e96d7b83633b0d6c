import Mathlib.Data.List.Induction
import Mathlib.Tactic.Common

/-!
# The last assignment decides

A record whose fields are set one at a time, by assignments `store k v`, from texts that mention the
keys in any order and more than once.  What a field is in the end is decided by the last assignment
that has an effect on it (`read_foldl`).  `IsField store k read convert` says that the field `read`
belongs to the key `k` and to no other, and `IsField.read_assign` is what a list of assignments makes
of it: the value of the last assignment to its key, or what it was if there is none.
-/

namespace Assignment

variable {O K V R : Type*}

/-- A field is what the last step with an effect on it has made of it. -/
lemma read_foldl {A : Type*} {step : O → A → O} {read : O → R} {effect : A → Option R}
    (h : ∀ o a, read (step o a) = (effect a).getD (read o)) (l : List A) (o : O) :
    read (l.foldl step o) = (l.filterMap effect).getLast?.getD (read o) := by
  induction l using List.reverseRecOn with
  | nil => rfl
  | append_singleton l a ih =>
    rw [List.foldl_append, List.foldl_cons, List.foldl_nil, h, ih, List.filterMap_append]
    cases ha : effect a with
    | none => simp [List.filterMap_cons_none ha]
    | some r => simp [List.filterMap_cons_some ha]

/-- The assignments to a key set the field, and those to other keys leave it as it is. -/
structure IsField (store : K → V → O → O) (k : K) (read : O → R) (convert : V → R) : Prop where
  read_self : ∀ v o, read (store k v o) = convert v
  read_of_ne : ∀ k' v o, k' ≠ k → read (store k' v o) = read o

/-- The assignments of a list, one after the other. -/
def assign (store : K → V → O → O) (o : O) (l : List (K × V)) : O :=
  l.foldl (fun o a => store a.1 a.2 o) o

variable [DecidableEq K]

/-- The values a list assigns to a key. -/
def valuesOf (k : K) (l : List (K × V)) : List V := (l.filter fun a => a.1 = k).map Prod.snd

variable {store : K → V → O → O} {k : K} {read : O → R} {convert : V → R}

/-- The assignments to a key, as effects. -/
lemma filterMap_valuesOf (convert : V → R) (k : K) (l : List (K × V)) :
    (l.filterMap fun a => if a.1 = k then some (convert a.2) else none) =
      (valuesOf k l).map convert := by
  unfold valuesOf
  induction l with
  | nil => rfl
  | cons a l ih => by_cases ha : a.1 = k <;> simp [ha, ih]

lemma IsField.read_assign (h : IsField store k read convert) (l : List (K × V)) (o : O) :
    read (assign store o l) = ((valuesOf k l).getLast?.map convert).getD (read o) := by
  rw [← List.getLast?_map, ← filterMap_valuesOf convert k l]
  refine read_foldl (fun o a => ?_) l o
  by_cases ha : a.1 = k
  · rw [if_pos ha, ha, h.read_self]
    rfl
  · rw [if_neg ha, h.read_of_ne _ _ _ ha]
    rfl

end Assignment
