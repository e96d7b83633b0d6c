import Mathlib.Tactic.Common
import Mathlib.Data.List.Infix

/-!
# Files and the paths that lead to them

A file system without links is a tree.  A place in it is the list of the names that lead there from
the root, the last one first, and a place that is there has a directory above it.  The components of
a path are followed one after the other, each from a directory.

Where a path ends is inside the place it starts from if it never climbs above it (`walk_inside`).
With enough components that climb, a path leads from any directory to any place (`walk_reaches`).
-/

namespace FileTree

variable {ν β : Type*}

abbrev Place (ν : Type*) := List ν

inductive Entry (β : Type*)
  | directory
  | file (content : β)

/-- A file system without links. -/
structure Tree (ν β : Type*) where
  entry : Place ν → Option (Entry β)
  root : entry [] = some .directory
  above : ∀ {n p}, (entry (n :: p)).isSome → entry p = some .directory

/-- A component of a path. -/
inductive Component (ν : Type*)
  | here
  | up
  | into (name : ν)
  deriving DecidableEq

/-- Where a component leads. -/
def Component.target (p : Place ν) : Component ν → Place ν
  | here => p
  | up => p.tail
  | into n => n :: p

namespace Tree

/-- One component, from a directory to what is there. -/
def follow (t : Tree ν β) (p : Place ν) (c : Component ν) : Option (Place ν) :=
  match t.entry p with
  | some .directory => if (t.entry (c.target p)).isSome then some (c.target p) else none
  | _ => none

/-- A path, from a place. -/
def walk (t : Tree ν β) : Place ν → List (Component ν) → Option (Place ν)
  | p, [] => some p
  | p, c :: cs => (t.follow p c).bind fun q => t.walk q cs

/-- The file a path leads to. -/
def read (t : Tree ν β) (p : Place ν) (cs : List (Component ν)) : Option β :=
  (t.walk p cs).bind fun q =>
    match t.entry q with
    | some (.file content) => some content
    | _ => none

variable {t : Tree ν β} {p q : Place ν} {c : Component ν} {cs ds : List (Component ν)}

lemma follow_eq_some (h : t.follow p c = some q) : q = c.target p := by
  unfold follow at h
  split at h
  · split_ifs at h
    exact (Option.some.inj h).symm
  · cases h

lemma follow_of_isSome (hp : t.entry p = some .directory) (hc : (t.entry (c.target p)).isSome) :
    t.follow p c = some (c.target p) := by
  unfold follow
  rw [hp]
  exact if_pos hc

lemma walk_cons_of_follow (h : t.follow p c = some q) : t.walk p (c :: cs) = t.walk q cs := by
  rw [walk, h]
  rfl

lemma walk_append (h : t.walk p cs = some q) : t.walk p (cs ++ ds) = t.walk q ds := by
  induction cs generalizing p with
  | nil =>
    cases h
    rfl
  | cons c cs ih =>
    obtain ⟨r, hr, h⟩ := Option.bind_eq_some_iff.mp h
    rw [List.cons_append, walk_cons_of_follow hr]
    exact ih h

/-- A path that leads to a file. -/
lemma read_eq_some {content : β} (h : t.read p cs = some content) :
    ∃ q, t.walk p cs = some q ∧ t.entry q = some (.file content) := by
  obtain ⟨q, hq, h⟩ := Option.bind_eq_some_iff.mp h
  refine ⟨q, hq, ?_⟩
  split at h
  · next content' hfile =>
    cases h
    exact hfile
  · cases h

lemma read_of_walk {content : β} (hwalk : t.walk p cs = some q)
    (hfile : t.entry q = some (.file content)) : t.read p cs = some content := by
  rw [read, hwalk, Option.bind_some, hfile]

/-! ## Above a place that is there -/

lemma directory_tail (h : t.entry p = some .directory) : t.entry p.tail = some .directory := by
  cases p with
  | nil => exact h
  | cons n p =>
    have hsome : (t.entry (n :: p)).isSome := by
      rw [h]
      rfl
    exact t.above hsome

lemma isSome_of_append {a : List ν} (h : (t.entry (a ++ p)).isSome) : (t.entry p).isSome := by
  induction a with
  | nil => exact h
  | cons n a ih =>
    refine ih ?_
    rw [t.above (p := a ++ p) h]
    rfl

end Tree

/-! ## Paths that stay -/

/-- The path does not climb above the place `depth` steps above the one it starts from. -/
def StaysBelow : (depth : ℕ) → List (Component ν) → Prop
  | _, [] => True
  | depth, .here :: cs => StaysBelow depth cs
  | 0, .up :: _ => False
  | depth + 1, .up :: cs => StaysBelow depth cs
  | depth, .into _ :: cs => StaysBelow (depth + 1) cs

namespace Tree

variable {t : Tree ν β} {p q : Place ν} {cs : List (Component ν)}

/-- A path that does not climb above a place ends inside it. -/
lemma walk_inside (base below : Place ν) (hstays : StaysBelow below.length cs)
    (h : t.walk (below ++ base) cs = some q) : base <:+ q := by
  induction cs generalizing below with
  | nil =>
    cases h
    exact List.suffix_append below base
  | cons c cs ih =>
    obtain ⟨r, hr, h⟩ := Option.bind_eq_some_iff.mp h
    obtain rfl := follow_eq_some hr
    cases c with
    | here => exact ih below hstays h
    | into n => exact ih (n :: below) hstays h
    | up =>
      cases below with
      | nil => exact absurd hstays id
      | cons m below => exact ih below hstays h

/-! ## Paths to anywhere -/

lemma walk_up (h : t.entry p = some .directory) (k : ℕ) :
    t.walk p (List.replicate k .up) = some (p.drop k) := by
  induction k generalizing p with
  | zero => rfl
  | succ k ih =>
    have htail := directory_tail h
    have hup : t.follow p .up = some p.tail := follow_of_isSome h (by
      change (t.entry p.tail).isSome = true
      rw [htail]
      rfl)
    rw [List.replicate_succ, walk_cons_of_follow hup, ih htail, List.drop_tail]

/-- The names of a place lead to it. -/
lemma walk_into {names : List ν} (h : (t.entry (names.reverse ++ p)).isSome) :
    t.walk p (names.map .into) = some (names.reverse ++ p) := by
  induction names generalizing p with
  | nil => rfl
  | cons n names ih =>
    rw [List.reverse_cons, List.append_assoc] at h ⊢
    have hnext : (t.entry (n :: p)).isSome := isSome_of_append h
    have hinto : t.follow p (.into n) = some (n :: p) := follow_of_isSome (t.above hnext) hnext
    rw [List.map_cons, walk_cons_of_follow hinto]
    exact ih h

/-- From any directory to any place, by way of the root. -/
lemma walk_reaches (hp : t.entry p = some .directory) {k : ℕ} (hk : p.length ≤ k)
    (hq : (t.entry q).isSome) :
    t.walk p (List.replicate k .up ++ q.reverse.map .into) = some q := by
  have hroot : t.walk p (List.replicate k .up) = some [] := by
    rw [walk_up hp, List.drop_eq_nil_of_le hk]
  have hnames : (t.entry (q.reverse.reverse ++ [])).isSome := by
    rw [List.reverse_reverse, List.append_nil]
    exact hq
  rw [walk_append hroot, walk_into hnames, List.reverse_reverse, List.append_nil]

end Tree

end FileTree
