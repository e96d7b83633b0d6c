import Mathlib.Data.List.Infix
import Mathlib.Data.List.Lex
import Mathlib.Data.Nat.Find
import Mathlib.Logic.Relation

/-!
# Replacing the occurrences of a word

A word `p` in a text is replaced by `r` in two ways.  `Replaced` goes through the text once: the
first occurrence is replaced, and what follows it is treated in the same way.  `Pass` replaces
the first occurrence of the whole text, the replacements made before included, and a program
that repeats it `Ends` when there is none left.

A `Stage` of the first way is the text with some of its occurrences replaced: the part that is
done, and the rest.  When at no stage an occurrence begins in the part that is done (`RestOnly`)
both ways take the same steps (`RestOnly.ends`).  For the converse `Ends.restOnly` compares the
texts at the first place where `r` differs from `p`: a pass makes the text smaller there, and an
occurrence that begins too early is replaced at a place that should have been left alone.  If
there is no such place because `r` is a beginning of `p`, then `r` may be put where it already
stood, and the two ways can meet again.
-/

namespace Replacement

variable {α : Type*} {p r : List α}

/-! ## Occurrences -/

/-- The first occurrence of `p` in `s` is between `before` and `after`. -/
structure FirstAt (p s before after : List α) : Prop where
  eq : s = before ++ p ++ after
  first : ∀ before' after', s = before' ++ p ++ after' → before.length ≤ before'.length

lemma exists_firstAt {s : List α} (h : p <:+: s) : ∃ before after, FirstAt p s before after := by
  classical
  have hsome : ∃ n, ∃ before after, s = before ++ p ++ after ∧ before.length = n := by
    obtain ⟨before, after, h⟩ := h
    exact ⟨_, before, after, h.symm, rfl⟩
  obtain ⟨before, after, heq, hlength⟩ := Nat.find_spec hsome
  refine ⟨before, after, heq, fun before' after' heq' => ?_⟩
  rw [hlength]
  exact Nat.find_min' hsome ⟨before', after', heq', rfl⟩

lemma FirstAt.unique {s before after before' after' : List α} (h : FirstAt p s before after)
    (h' : FirstAt p s before' after') : before = before' ∧ after = after' := by
  have hlength : before.length = before'.length :=
    Nat.le_antisymm (h.first _ _ h'.eq) (h'.first _ _ h.eq)
  have heq := h.eq.symm.trans h'.eq
  rw [List.append_assoc, List.append_assoc] at heq
  obtain ⟨hbefore, hrest⟩ := List.append_inj heq hlength
  exact ⟨hbefore, List.append_cancel_left hrest⟩

/-- An occurrence that begins after `done` is one of the rest. -/
lemma occurrence_rest {done rest before after : List α} (h : done ++ rest = before ++ p ++ after)
    (hlate : done.length ≤ before.length) :
    ∃ before', before = done ++ before' ∧ rest = before' ++ p ++ after := by
  have hprefix : done <+: before := by
    refine List.prefix_of_prefix_length_le (List.prefix_append done rest) ?_ hlate
    rw [h, List.append_assoc]
    exact List.prefix_append before _
  obtain ⟨before', rfl⟩ := hprefix
  rw [List.append_assoc, List.append_assoc, List.append_cancel_left_eq] at h
  exact ⟨before', rfl, by rw [h, List.append_assoc]⟩

/-! ## The two ways -/

/-- `t` is `s` with its first occurrence of `p` replaced. -/
def Pass (p r s t : List α) : Prop :=
  ∃ before after, FirstAt p s before after ∧ t = before ++ r ++ after

/-- Passes lead from `s` to `t`, where no occurrence is left. -/
structure Ends (p r s t : List α) : Prop where
  passes : Relation.ReflTransGen (Pass p r) s t
  none : ¬ p <:+: t

/-- `t` is `s` with its leftmost occurrences that do not overlap replaced, in one go. -/
inductive Replaced (p r : List α) : List α → List α → Prop
  | last {s : List α} : ¬ p <:+: s → Replaced p r s s
  | next {s before after t : List α} :
      FirstAt p s before after → Replaced p r after t → Replaced p r s (before ++ r ++ t)

/-- With some occurrences of `s` replaced, the part that is done and the rest. -/
inductive Stage (p r s : List α) : List α → List α → Prop
  | start : Stage p r s [] s
  | next {done rest before after : List α} :
      Stage p r s done rest → FirstAt p rest before after →
        Stage p r s (done ++ before ++ r) after

/-- At no stage an occurrence begins in the part that is done. -/
def RestOnly (p r s : List α) : Prop :=
  ∀ done rest, Stage p r s done rest → ∀ before after, done ++ rest = before ++ p ++ after →
    done.length ≤ before.length

/-- A first occurrence in the rest is the first of all, if none begins earlier. -/
lemma FirstAt.append {done rest before after : List α} (h : FirstAt p rest before after)
    (hlate : ∀ before' after', done ++ rest = before' ++ p ++ after' →
      done.length ≤ before'.length) :
    FirstAt p (done ++ rest) (done ++ before) after := by
  refine ⟨by rw [h.eq]; simp only [List.append_assoc], fun before' after' heq => ?_⟩
  obtain ⟨before'', rfl, hrest⟩ := occurrence_rest heq (hlate _ _ heq)
  have := h.first _ _ hrest
  simp only [List.length_append]
  omega

/-- **Where the two ways agree.** If no occurrence ever begins in the part that is done, the
passes end with the text replaced in one go. -/
theorem RestOnly.ends {s out : List α} (h : RestOnly p r s) (hout : Replaced p r s out) :
    Ends p r s out := by
  suffices hstages : ∀ rest tail, Replaced p r rest tail → ∀ done, Stage p r s done rest →
      Ends p r (done ++ rest) (done ++ tail) from hstages s out hout [] .start
  intro rest tail hreplaced
  induction hreplaced with
  | @last rest hnone =>
    intro done hstage
    refine ⟨.refl, ?_⟩
    rintro ⟨before, after, heq⟩
    obtain ⟨before', -, hrest⟩ := occurrence_rest heq.symm (h _ _ hstage _ _ heq.symm)
    exact hnone ⟨before', after, hrest.symm⟩
  | @next rest before after tail hfirst _ ih =>
    intro done hstage
    have hends := ih _ (hstage.next hfirst)
    have hpass : Pass p r (done ++ rest) (done ++ before ++ r ++ after) :=
      ⟨_, _, hfirst.append (h _ _ hstage), rfl⟩
    have htext : done ++ before ++ r ++ tail = done ++ (before ++ r ++ tail) := by
      simp only [List.append_assoc]
    rw [htext] at hends
    exact ⟨hends.passes.head hpass, hends.none⟩

/-! ## The converse -/

lemma Pass.unique {s t t' : List α} (h : Pass p r s t) (h' : Pass p r s t') : t = t' := by
  obtain ⟨before, after, hfirst, rfl⟩ := h
  obtain ⟨before', after', hfirst', rfl⟩ := h'
  obtain ⟨rfl, rfl⟩ := hfirst.unique hfirst'
  rfl

lemma Pass.infix {s t : List α} (h : Pass p r s t) : p <:+: s := by
  obtain ⟨before, after, hfirst, -⟩ := h
  exact ⟨before, after, hfirst.eq.symm⟩

/-- The first pass leads to the same end. -/
lemma Ends.of_pass {s s' t : List α} (h : Ends p r s t) (hpass : Pass p r s s') :
    Ends p r s' t := by
  rcases h.passes.cases_head with rfl | ⟨s'', hpass', hpasses⟩
  · exact absurd hpass.infix h.none
  · rw [hpass.unique hpass']
    exact ⟨hpasses, h.none⟩

lemma Replaced.of_firstAt {s t before after : List α} (h : Replaced p r s t)
    (hfirst : FirstAt p s before after) :
    ∃ tail, Replaced p r after tail ∧ t = before ++ r ++ tail := by
  cases h with
  | last hnone => exact absurd ⟨before, after, hfirst.eq.symm⟩ hnone
  | next hfirst' htail =>
    obtain ⟨rfl, rfl⟩ := hfirst.unique hfirst'
    exact ⟨_, htail, rfl⟩

/-- Two words neither of which is a beginning of the other differ somewhere. -/
lemma exists_difference {u v : List α} (huv : ¬ u <+: v) (hvu : ¬ v <+: u) :
    ∃ common x y u' v', u = common ++ x :: u' ∧ v = common ++ y :: v' ∧ x ≠ y := by
  induction u generalizing v with
  | nil => exact absurd (List.nil_prefix) huv
  | cons x u ih =>
    cases v with
    | nil => exact absurd (List.nil_prefix) hvu
    | cons y v =>
      by_cases hxy : x = y
      · subst hxy
        rw [List.prefix_cons_inj] at huv hvu
        obtain ⟨common, a, b, u', v', rfl, rfl, hab⟩ := ih huv hvu
        exact ⟨x :: common, a, b, u', v', rfl, rfl, hab⟩
      · exact ⟨[], x, y, u, v, rfl, rfl, hxy⟩

/-- The first place where two texts differ decides their order under a weight of the letters. -/
lemma map_lt_map {weight : α → ℕ} {x y : α} (hxy : weight x < weight y) (common s t : List α) :
    (common ++ x :: s).map weight < (common ++ y :: t).map weight := by
  rw [List.map_append, List.map_append, List.map_cons, List.map_cons]
  exact List.Lex.append_left _ (List.Lex.rel hxy) _

/-- When the replacement is the lighter one where it first differs, passes make the text
lighter. -/
lemma passes_le {weight : α → ℕ} {x y : α} {common r' p' s t : List α}
    (hxy : weight x < weight y)
    (h : Relation.ReflTransGen (Pass (common ++ y :: p') (common ++ x :: r')) s t) :
    t = s ∨ t.map weight < s.map weight := by
  induction h with
  | refl => exact Or.inl rfl
  | @tail t t' _ hpass ih =>
    right
    obtain ⟨before, after, hfirst, rfl⟩ := hpass
    have hlt : (before ++ (common ++ x :: r') ++ after).map weight < t.map weight := by
      rw [hfirst.eq]
      simpa only [List.append_assoc, List.cons_append] using
        map_lt_map hxy (before ++ common) (r' ++ after) (p' ++ after)
    rcases ih with rfl | ih
    · exact hlt
    · exact List.lt_trans hlt ih

/-- An occurrence that ends with the part left alone, or before, would still be there. -/
lemma not_infix_of_append {s t : List α} (h : ¬ p <:+: s ++ t) : ¬ p <:+: s :=
  fun hs => h (hs.trans (List.prefix_append s t).isInfix)

/-- Of two occurrences that overlap the second begins with what is left of the first. -/
lemma exists_overlap {before after front after' : List α}
    (heq : before ++ p ++ after = front ++ p ++ after') (hlt : before.length < front.length)
    (hover : front.length < before.length + p.length) :
    ∃ u v, front = before ++ u ∧ p = u ++ v ∧ u ≠ [] ∧ v <+: p := by
  rw [List.append_assoc, List.append_assoc] at heq
  obtain ⟨u, rfl⟩ : before <+: front :=
    List.prefix_of_prefix_length_le (heq ▸ List.prefix_append before _)
      (List.prefix_append front _) (Nat.le_of_lt hlt)
  rw [List.append_assoc, List.append_cancel_left_eq] at heq
  rw [List.length_append] at hlt hover
  obtain ⟨v, hv⟩ : u <+: p :=
    List.prefix_of_prefix_length_le (heq ▸ List.prefix_append u _) (List.prefix_append p after)
      (by omega)
  refine ⟨u, v, rfl, hv.symm, ?_, ?_⟩
  · rintro rfl
    exact Nat.lt_irrefl _ hlt
  · have hrest : v ++ after = p ++ after' := by
      rwa [← hv, List.append_assoc, List.append_cancel_left_eq, hv] at heq
    refine List.prefix_of_prefix_length_le (hrest ▸ List.prefix_append v after)
      (List.prefix_append p after') ?_
    rw [← hv, List.length_append]
    omega

/-- What an occurrence of `p = u ++ v` that overlaps the next one says of `u ++ r`: it agrees with
`p` as far as `r` does, and one letter further. -/
lemma overlap_prefix {common u v r' p' : List α} {x y : α} (hu : u ≠ [])
    (hp : common ++ y :: p' = u ++ v) (hv : v <+: common ++ y :: p') :
    common ++ [y] <+: u ++ (common ++ x :: r') := by
  have hcommon : common ++ [y] <+: common ++ y :: p' := by
    rw [List.prefix_append_right_inj]
    exact List.prefix_append [y] p'
  by_cases hlong : common.length < u.length
  · have hu : common ++ [y] <+: u := by
      refine List.prefix_of_prefix_length_le hcommon (hp ▸ List.prefix_append u v) ?_
      rw [List.length_append, List.length_singleton]
      omega
    exact hu.trans (List.prefix_append u _)
  · -- `v` begins with what `common` has after `u`, and one letter more
    obtain ⟨more, rfl⟩ : u <+: common :=
      List.prefix_of_prefix_length_le (hp ▸ List.prefix_append u v)
        (List.prefix_append common _) (not_lt.mp hlong)
    rw [List.append_assoc, List.append_cancel_left_eq] at hp
    have hmore : more ++ [y] <+: v := by
      rw [← hp, List.prefix_append_right_inj]
      exact List.prefix_append [y] p'
    have hagain : more ++ [y] <+: u ++ more := by
      refine List.prefix_of_prefix_length_le (hmore.trans hv) (List.prefix_append _ _) ?_
      have := List.length_pos_iff.mpr hu
      simp only [List.length_append, List.length_singleton]
      omega
    rw [List.append_assoc, List.prefix_append_right_inj]
    exact hagain.trans (List.prefix_append _ _)

/-- Once an occurrence is replaced that overlaps the next one, the passes do not lead to the text
in which the next one is replaced instead. -/
lemma not_passes_of_overlap {front u v after tail : List α} (hu : u ≠ []) (hp : p = u ++ v)
    (hv : v <+: p) (hrp : ¬ r <+: p) (hpr : ¬ p <+: r) :
    ¬ Relation.ReflTransGen (Pass p r) (front ++ r ++ after) (front ++ u ++ r ++ tail) := by
  classical
  intro hpasses
  obtain ⟨common, x, y, r', p', rfl, rfl, hxy⟩ := exists_difference hrp hpr
  obtain ⟨more, hmore⟩ : common ++ [y] <+: u ++ (common ++ x :: r') := overlap_prefix hu hp hv
  -- the letter of the replacement is the light one, all others are heavy
  let weight : α → ℕ := fun c => if c = x then 0 else 1
  have hweight : weight x < weight y := by
    simp only [weight, if_pos, if_neg (Ne.symm hxy)]
    exact Nat.zero_lt_one
  have hlt : (front ++ (common ++ x :: r') ++ after).map weight <
      (front ++ u ++ (common ++ x :: r') ++ tail).map weight := by
    have hlight : front ++ (common ++ x :: r') ++ after =
        (front ++ common) ++ x :: (r' ++ after) := by simp
    have hheavy : front ++ u ++ (common ++ x :: r') ++ tail =
        (front ++ common) ++ y :: (more ++ tail) := by
      rw [List.append_assoc front u, ← hmore]
      simp
    rw [hlight, hheavy]
    exact map_lt_map hweight _ _ _
  rcases passes_le hweight hpasses with heq | hle
  · rw [heq] at hlt
    exact absurd hlt (List.lt_irrefl _)
  · exact absurd (List.lt_trans hlt hle) (List.lt_irrefl _)

/-- In a run that ends as it should no occurrence begins too early. -/
lemma Ends.not_early {done rest tail : List α} (hr : ¬ (r <+: p ∧ r ≠ p))
    (h : Ends p r (done ++ rest) (done ++ tail)) (htail : Replaced p r rest tail)
    {before after : List α} (heq : done ++ rest = before ++ p ++ after) :
    done.length ≤ before.length := by
  classical
  by_contra hearly
  obtain ⟨before₁, after₁, hfirst₁⟩ := exists_firstAt (p := p) ⟨before, after, heq.symm⟩
  have hlt : before₁.length < done.length :=
    Nat.lt_of_le_of_lt (hfirst₁.first _ _ heq) (not_le.mp hearly)
  cases htail with
  | last _ => exact h.none ⟨before, after, heq.symm⟩
  | @next _ before₂ after₂ tail hfirst₂ htail =>
    have hnone : ¬ p <:+: (done ++ before₂) ++ (r ++ tail) := by
      have hend := h.none
      simpa only [List.append_assoc] using hend
    have hfront : done ++ before₂ <+: done ++ rest := by
      rw [hfirst₂.eq, List.append_assoc, List.prefix_append_right_inj]
      exact List.prefix_append _ _
    by_cases hapart : before₁.length + p.length ≤ done.length + before₂.length
    · -- it ends before the next one begins, and is never replaced
      have hwhole : before₁ ++ p <+: done ++ before₂ := by
        refine List.prefix_of_prefix_length_le ?_ hfront (by simpa using hapart)
        rw [hfirst₁.eq]
        exact List.prefix_append _ _
      exact not_infix_of_append hnone
        ((List.suffix_append before₁ p).isInfix.trans hwhole.isInfix)
    · -- it overlaps the next one: `p = u ++ v`, and the next one is `u` further on
      have hboth : before₁ ++ p ++ after₁ = (done ++ before₂) ++ p ++ after₂ := by
        rw [← hfirst₁.eq, hfirst₂.eq]
        simp only [List.append_assoc]
      obtain ⟨u, v, hu, hp, hune, hvp⟩ := exists_overlap hboth
        (by rw [List.length_append]; omega) (by rw [List.length_append]; omega)
      have hpr : ¬ p <+: r := by
        rintro ⟨more, rfl⟩
        exact hnone ⟨done ++ before₂, more ++ tail, by simp only [List.append_assoc]⟩
      have hrp : ¬ r <+: p := fun hrp => hpr (by
        by_contra hne
        exact hr ⟨hrp, fun heq => hne (heq ▸ List.prefix_refl r)⟩)
      have hpasses := (h.of_pass ⟨_, _, hfirst₁, rfl⟩).passes
      rw [← List.append_assoc, ← List.append_assoc, hu] at hpasses
      exact not_passes_of_overlap hune hp hvp hrp hpr hpasses

/-- **The converse.** If the passes end with the text replaced in one go, and `r` is not a proper
beginning of `p`, then at no stage an occurrence begins in the part that is done. -/
theorem Ends.restOnly {s out : List α} (hr : ¬ (r <+: p ∧ r ≠ p)) (h : Ends p r s out)
    (hout : Replaced p r s out) : RestOnly p r s := by
  have hstages : ∀ done rest, Stage p r s done rest →
      ∃ tail, Replaced p r rest tail ∧ Ends p r (done ++ rest) (done ++ tail) := by
    intro done rest hstage
    induction hstage with
    | start => exact ⟨out, hout, h⟩
    | @next done rest before after hstage hfirst ih =>
      obtain ⟨tail, htail, hends⟩ := ih
      obtain ⟨tail', htail', rfl⟩ := htail.of_firstAt hfirst
      have hpass : Pass p r (done ++ rest) (done ++ before ++ r ++ after) :=
        ⟨_, _, hfirst.append fun _ _ heq => hends.not_early hr htail heq, rfl⟩
      have hnext := hends.of_pass hpass
      refine ⟨tail', htail', ?_⟩
      simpa only [List.append_assoc] using hnext
  intro done rest hstage before after heq
  obtain ⟨tail, htail, hends⟩ := hstages done rest hstage
  exact hends.not_early hr htail heq

end Replacement
