import Mathlib.Tactic.Common

/-!
# Runs of a partial step function

A program is a step function `step : σ → ι → Option σ`; `none` is a step the program has no
defined result for, and a run stops there.  This file states what it means for a property to
hold in every state of a run (`Always`) and for a condition to hold at every step the run
takes (`Along`), and proves the exact invariant rule `always_iff_along`: when a step preserves
a property precisely if it meets the condition, the property holds in every state of a run if
and only if all the steps of the run meet the condition.

`always_iff_run` reads `Always` as a statement about the states the prefixes of the run reach.
-/

namespace PartialRun

variable {σ ι : Type*}

/-- The state a run ends in, if every one of its steps is defined. -/
def run (step : σ → ι → Option σ) (s : σ) : List ι → Option σ
  | [] => some s
  | i :: is => (step s i).bind fun t => run step t is

/-- `I` holds in every state the run visits, its first one included. -/
def Always (step : σ → ι → Option σ) (I : σ → Prop) (s : σ) : List ι → Prop
  | [] => I s
  | i :: is => I s ∧ ∀ t, step s i = some t → Always step I t is

/-- `C` holds at every defined step the run takes, of the state before it and its input. -/
def Along (step : σ → ι → Option σ) (C : σ → ι → Prop) (s : σ) : List ι → Prop
  | [] => True
  | i :: is => ∀ t, step s i = some t → C s i ∧ Along step C t is

/-- `C` holds at every step the run attempts, defined or not, of the state before it and its
input. -/
def AtEach (step : σ → ι → Option σ) (C : σ → ι → Prop) (s : σ) : List ι → Prop
  | [] => True
  | i :: is => C s i ∧ ∀ t, step s i = some t → AtEach step C t is

variable {step : σ → ι → Option σ} {I : σ → Prop} {C : σ → ι → Prop}

/-- Every step of the run is defined, and `I` holds in every state it visits. -/
def Throughout (step : σ → ι → Option σ) (I : σ → Prop) (s : σ) : List ι → Prop
  | [] => I s
  | i :: is => I s ∧ ∃ t, step s i = some t ∧ Throughout step I t is

instance decidableAlways [DecidablePred I] :
    (is : List ι) → (s : σ) → Decidable (Always step I s is)
  | [], s => inferInstanceAs (Decidable (I s))
  | i :: is, s =>
    have := decidableAlways is
    inferInstanceAs (Decidable (I s ∧ ∀ t ∈ step s i, Always step I t is))

instance decidableAlong [∀ s i, Decidable (C s i)] :
    (is : List ι) → (s : σ) → Decidable (Along step C s is)
  | [], _ => isTrue trivial
  | i :: is, s =>
    have := decidableAlong is
    inferInstanceAs (Decidable (∀ t ∈ step s i, C s i ∧ Along step C t is))

lemma run_cons (s : σ) (i : ι) (is : List ι) :
    run step s (i :: is) = (step s i).bind fun t => run step t is := rfl

lemma Always.head {s : σ} {is : List ι} (h : Always step I s is) : I s := by
  cases is with
  | nil => exact h
  | cons i is => exact h.1

/-- `Always` is about the states reached by the prefixes of the run. -/
lemma always_iff_run {s : σ} {is : List ι} :
    Always step I s is ↔ ∀ pre t, pre <+: is → run step s pre = some t → I t := by
  induction is generalizing s with
  | nil =>
    constructor
    · rintro hs pre t hpre hrun
      obtain rfl := List.prefix_nil.mp hpre
      cases hrun
      exact hs
    · intro h
      exact h [] s List.nil_prefix rfl
  | cons i is ih =>
    constructor
    · rintro ⟨hs, hnext⟩ pre t hpre hrun
      cases pre with
      | nil =>
        cases hrun
        exact hs
      | cons j pre =>
        obtain ⟨rfl, htail⟩ := List.cons_prefix_cons.mp hpre
        obtain ⟨u, hu, hrest⟩ := Option.bind_eq_some_iff.mp hrun
        exact ih.mp (hnext u hu) pre t htail hrest
    · intro h
      refine ⟨h [] s List.nil_prefix rfl, fun t ht => ih.mpr fun pre u hpre hrun => ?_⟩
      refine h (i :: pre) u (List.cons_prefix_cons.mpr ⟨rfl, hpre⟩) ?_
      rw [run_cons, ht]
      exact hrun

lemma Always.of_run {s t : σ} {is : List ι} (h : Always step I s is)
    (hrun : run step s is = some t) : I t :=
  always_iff_run.mp h is t (List.prefix_refl is) hrun

/-- The invariant rule: a property that every step meeting the condition preserves holds in every
state of a run whose steps all meet it. -/
lemma always_of_along (hstep : ∀ s i t, I s → C s i → step s i = some t → I t) {s : σ}
    {is : List ι} (hs : I s) (hC : Along step C s is) : Always step I s is := by
  induction is generalizing s with
  | nil => exact hs
  | cons i is ih =>
    refine ⟨hs, fun t ht => ?_⟩
    obtain ⟨hi, hrest⟩ := hC t ht
    exact ih (hstep s i t hs hi ht) hrest

/-- A condition on the inputs alone holds along every run on inputs that meet it. -/
lemma along_of_forall {P : ι → Prop} {is : List ι} (h : ∀ i ∈ is, P i) (s : σ) :
    Along step (fun _ i => P i) s is := by
  induction is generalizing s with
  | nil => trivial
  | cons i is ih =>
    exact fun t _ => ⟨h i (by simp), ih (fun j hj => h j (by simp [hj])) t⟩

/-- A condition may be weakened to what it says in the states of an invariant that the steps
meeting it keep. -/
lemma Along.imp_of_inv {J : σ → Prop} {D : σ → ι → Prop}
    (hJ : ∀ s i t, J s → C s i → step s i = some t → J t)
    (hCD : ∀ s i t, J s → step s i = some t → C s i → D s i) {s : σ} {is : List ι} (hs : J s)
    (h : Along step C s is) : Along step D s is := by
  induction is generalizing s with
  | nil => trivial
  | cons i is ih =>
    intro t ht
    obtain ⟨hi, hrest⟩ := h t ht
    exact ⟨hCD s i t hs ht hi, ih (hJ s i t hs hi ht) hrest⟩

/-- A condition that the steps meet may be weakened. -/
lemma Along.imp {D : σ → ι → Prop} (hCD : ∀ s i t, step s i = some t → C s i → D s i) {s : σ}
    {is : List ι} (h : Along step C s is) : Along step D s is :=
  h.imp_of_inv (J := fun _ => True) (fun _ _ _ _ _ _ => trivial)
    (fun s i t _ ht hi => hCD s i t ht hi) trivial

/-- Conditions that say the same of every step hold at each step of the same runs. -/
lemma atEach_congr {D : σ → ι → Prop} (hCD : ∀ s i, C s i ↔ D s i) {s : σ} {is : List ι} :
    AtEach step C s is ↔ AtEach step D s is := by
  induction is generalizing s with
  | nil => exact Iff.rfl
  | cons i is ih =>
    refine and_congr (hCD s i) (forall_congr' fun t => ?_)
    exact forall_congr' fun _ => ih

/-- The exact rule for what each step does: relative to an invariant `J` that the right steps keep,
and on inputs in `P`, where a step is right precisely if it meets the condition. -/
lemma atEach_iff_of_inv {J : σ → Prop} {P : ι → Prop} {D : σ → ι → Prop}
    (hstep : ∀ s i, J s → P i → (C s i ↔ D s i))
    (hJ : ∀ s i t, J s → P i → C s i → step s i = some t → J t) {s : σ} {is : List ι}
    (hs : J s) (hP : ∀ i ∈ is, P i) : AtEach step C s is ↔ AtEach step D s is := by
  induction is generalizing s with
  | nil => exact Iff.rfl
  | cons i is ih =>
    have hi := hP i List.mem_cons_self
    have hrest : ∀ j ∈ is, P j := fun j hj => hP j (List.mem_cons_of_mem i hj)
    constructor
    · rintro ⟨hC, hnext⟩
      exact ⟨(hstep s i hs hi).mp hC, fun t ht =>
        (ih (hJ s i t hs hi hC ht) hrest).mp (hnext t ht)⟩
    · rintro ⟨hD, hnext⟩
      have hC := (hstep s i hs hi).mpr hD
      exact ⟨hC, fun t ht => (ih (hJ s i t hs hi hC ht) hrest).mpr (hnext t ht)⟩

lemma Always.imp {J : σ → Prop} (hIJ : ∀ s, I s → J s) {s : σ} {is : List ι}
    (h : Always step I s is) : Always step J s is := by
  induction is generalizing s with
  | nil => exact hIJ s h
  | cons i is ih => exact ⟨hIJ s h.1, fun t ht => ih (h.2 t ht)⟩

/-- The invariant rule, where the steps keep `I` only in the states of another invariant `J`. -/
lemma always_of_along_of_inv {J : σ → Prop}
    (hJ : ∀ s i t, J s → C s i → step s i = some t → J t)
    (hstep : ∀ s i t, J s → I s → C s i → step s i = some t → I t) {s : σ} {is : List ι}
    (hsJ : J s) (hs : I s) (hC : Along step C s is) : Always step I s is := by
  have hboth : Always step (fun s => J s ∧ I s) s is :=
    always_of_along (fun s i t hs hi h => ⟨hJ s i t hs.1 hi h, hstep s i t hs.1 hs.2 hi h⟩)
      ⟨hsJ, hs⟩ hC
  exact hboth.imp fun s hs => hs.2

/-- The exact invariant rule, relative to an invariant `J` that the steps preserve where `I`
holds. -/
lemma always_iff_along_of_inv {J : σ → Prop} (hJ : ∀ s i t, J s → I s → step s i = some t → J t)
    (hstep : ∀ s i t, J s → I s → step s i = some t → (I t ↔ C s i))
    {s : σ} {is : List ι} (hsJ : J s) (hs : I s) : Always step I s is ↔ Along step C s is := by
  induction is generalizing s with
  | nil => simp [Always, Along, hs]
  | cons i is ih =>
    constructor
    · rintro ⟨-, h⟩ t ht
      have hI := (h t ht).head
      exact ⟨(hstep s i t hsJ hs ht).mp hI, (ih (hJ s i t hsJ hs ht) hI).mp (h t ht)⟩
    · intro h
      refine ⟨hs, fun t ht => ?_⟩
      obtain ⟨hC, hrest⟩ := h t ht
      exact (ih (hJ s i t hsJ hs ht) ((hstep s i t hsJ hs ht).mpr hC)).mpr hrest

/-- The exact invariant rule, relative to an invariant `J` that every step preserves. -/
lemma always_iff_along {J : σ → Prop} (hJ : ∀ s i t, J s → step s i = some t → J t)
    (hstep : ∀ s i t, J s → I s → step s i = some t → (I t ↔ C s i))
    {s : σ} {is : List ι} (hsJ : J s) (hs : I s) : Always step I s is ↔ Along step C s is :=
  always_iff_along_of_inv (fun s i t hJs _ ht => hJ s i t hJs ht) hstep hsJ hs

/-- The exact invariant rule, where the step alone decides. -/
lemma always_iff_along_of_step (hstep : ∀ s i t, I s → step s i = some t → (I t ↔ C s i))
    {s : σ} {is : List ι} (hs : I s) : Always step I s is ↔ Along step C s is := by
  have hJ : ∀ s i t, (fun _ : σ => True) s → step s i = some t → (fun _ : σ => True) t :=
    fun _ _ _ _ _ => trivial
  exact always_iff_along hJ (fun s i t _ hI ht => hstep s i t hI ht) trivial hs

/-- The exact rule for a property that holds throughout a run on inputs in `P`, relative to an
invariant `J`: where both hold, a step on such an input is defined and keeps `J`, and it keeps
`I` precisely if it meets the condition. -/
lemma throughout_iff_along {J : σ → Prop} {P : ι → Prop}
    (hstep : ∀ s i, J s → I s → P i → ∃ t, step s i = some t ∧ J t ∧ (I t ↔ C s i))
    {s : σ} {is : List ι} (hsJ : J s) (hs : I s) (hP : ∀ i ∈ is, P i) :
    Throughout step I s is ↔ Along step C s is := by
  induction is generalizing s with
  | nil => simp [Throughout, Along, hs]
  | cons i is ih =>
    obtain ⟨t, ht, htJ, htI⟩ := hstep s i hsJ hs (hP i (by simp))
    have hrest : I t → (Throughout step I t is ↔ Along step C t is) := fun h =>
      ih htJ h fun j hj => hP j (by simp [hj])
    constructor
    · rintro ⟨-, u, hu, hthroughout⟩ v hv
      obtain rfl : t = u := Option.some.inj (ht.symm.trans hu)
      obtain rfl : t = v := Option.some.inj (ht.symm.trans hv)
      have hI : I t := by
        cases is with
        | nil => exact hthroughout
        | cons j is => exact hthroughout.1
      exact ⟨htI.mp hI, (hrest hI).mp hthroughout⟩
    · intro halong
      obtain ⟨hC, htail⟩ := halong t ht
      exact ⟨hs, t, ht, (hrest (htI.mpr hC)).mpr htail⟩

end PartialRun
