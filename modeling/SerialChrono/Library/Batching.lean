import Mathlib.Tactic.Common

/-!
# Handling inputs one by one or in a batch

A program handles an input in two halves: `parse` reads it, may change the state at once and
may give a command, and `exec` carries a command out.  When the inputs come in a batch, all of
them are parsed before the first command is executed.

`batched_eq_stepwise` is the rule for when this makes no difference: whenever an input is parsed
while a command is pending, the command could as well be executed before.  `EachPending` visits
these situations: for each command the inputs behind its own one, parsed one after the other, all
that comes before having been carried out.
-/

namespace Batching

variable {σ ε κ : Type*} (parse : σ → ε → Option (σ × Option κ)) (exec : σ → κ → Option σ)

/-- Parses the inputs in order and collects their commands. -/
def parseAll (s : σ) : List ε → Option (σ × List κ)
  | [] => some (s, [])
  | e :: es => (parse s e).bind fun r =>
    (parseAll r.1 es).map fun u => (u.1, r.2.toList ++ u.2)

/-- Executes the commands in order. -/
def execAll (s : σ) : List κ → Option σ
  | [] => some s
  | c :: cs => (exec s c).bind fun t => execAll t cs

/-- The inputs arrive together. -/
def batched (s : σ) (es : List ε) : Option σ :=
  (parseAll parse s es).bind fun r => execAll exec r.1 r.2

/-- The inputs arrive one at a time. -/
def stepwise (s : σ) : List ε → Option σ
  | [] => some s
  | e :: es => (batched parse exec s [e]).bind fun t => stepwise t es

/-- In `s` it does not matter whether `c` is executed before or after `e` is parsed. -/
def Commutes (s : σ) (c : κ) (e : ε) : Prop :=
  (exec s c).bind (fun t => parse t e) =
    (parse s e).bind fun r => (exec r.1 c).map fun t => (t, r.2)

/-- `C` holds of the pending command and of each input, in the state in which that is parsed. -/
def WhilePending (C : σ → κ → ε → Prop) (c : κ) (s : σ) : List ε → Prop
  | [] => True
  | e :: es => C s c e ∧ ∀ r, parse s e = some r → WhilePending C c r.1 es

/-- `C` holds of the command of each input and of those behind it while the command is pending;
before that, what precedes has been parsed and executed. -/
def EachPending (C : σ → κ → ε → Prop) (s : σ) : List ε → Prop
  | [] => True
  | e :: es => ∀ r, parse s e = some r →
    (∀ c, r.2 = some c → WhilePending parse C c r.1 es) ∧
      ∀ t, execAll exec r.1 r.2.toList = some t → EachPending C t es

variable {parse exec} {C : σ → κ → ε → Prop}

instance decidableWhilePending [∀ s c e, Decidable (C s c e)] (c : κ) :
    (es : List ε) → (s : σ) → Decidable (WhilePending parse C c s es)
  | [], _ => isTrue trivial
  | e :: es, s =>
    have := decidableWhilePending c es
    inferInstanceAs (Decidable (C s c e ∧ ∀ r ∈ parse s e, WhilePending parse C c r.1 es))

instance decidableEachPending [∀ s c e, Decidable (C s c e)] :
    (es : List ε) → (s : σ) → Decidable (EachPending parse exec C s es)
  | [], _ => isTrue trivial
  | e :: es, s =>
    have := decidableEachPending es
    inferInstanceAs (Decidable (∀ r ∈ parse s e, (∀ c ∈ r.2, WhilePending parse C c r.1 es) ∧
      ∀ t ∈ execAll exec r.1 r.2.toList, EachPending parse exec C t es))

@[simp] lemma execAll_nil (s : σ) : execAll exec s [] = some s := rfl

lemma execAll_cons (s : σ) (c : κ) (cs : List κ) :
    execAll exec s (c :: cs) = (exec s c).bind fun t => execAll exec t cs := rfl

lemma execAll_append (s : σ) (cs ds : List κ) :
    execAll exec s (cs ++ ds) = (execAll exec s cs).bind fun t => execAll exec t ds := by
  induction cs generalizing s with
  | nil => rfl
  | cons c cs ih => simp only [List.cons_append, execAll_cons, ih, Option.bind_assoc]

lemma parseAll_cons (s : σ) (e : ε) (es : List ε) :
    parseAll parse s (e :: es) = (parse s e).bind fun r =>
      (parseAll parse r.1 es).map fun u => (u.1, r.2.toList ++ u.2) := rfl

lemma batched_cons (s : σ) (e : ε) (es : List ε) :
    batched parse exec s (e :: es) = (parse s e).bind fun r =>
      (parseAll parse r.1 es).bind fun u =>
        (execAll exec u.1 r.2.toList).bind fun t => execAll exec t u.2 := by
  simp only [batched, parseAll_cons, Option.bind_assoc, Option.bind_map, Function.comp_def,
    execAll_append]

lemma batched_singleton (s : σ) (e : ε) :
    batched parse exec s [e] = (parse s e).bind fun r => execAll exec r.1 r.2.toList := by
  simp [batched_cons, parseAll]

/-- A command that commutes with each input while it is pending commutes with parsing them all. -/
lemma exec_parseAll {P : κ → Prop} (hC : ∀ s c e, P c → C s c e → Commutes parse exec s c e) {c : κ}
    (hc : P c) {es : List ε} {s : σ} (h : WhilePending parse C c s es) :
    (exec s c).bind (fun t => parseAll parse t es) =
      (parseAll parse s es).bind fun r => (exec r.1 c).map fun t => (t, r.2) := by
  induction es generalizing s with
  | nil => cases hexec : exec s c <;> simp [parseAll, hexec]
  | cons e es ih =>
    have he : Commutes parse exec s c e := hC s c e hc h.1
    calc (exec s c).bind (fun t => parseAll parse t (e :: es))
        = ((exec s c).bind fun t => parse t e).bind fun r =>
            (parseAll parse r.1 es).map fun u => (u.1, r.2.toList ++ u.2) := by
          simp only [parseAll_cons, Option.bind_assoc]
      _ = (parse s e).bind fun r => ((exec r.1 c).bind fun t => parseAll parse t es).map
            fun u => (u.1, r.2.toList ++ u.2) := by
          rw [he, Option.bind_assoc]
          congr 1
          funext r
          cases exec r.1 c <;> rfl
      _ = (parseAll parse s (e :: es)).bind fun r => (exec r.1 c).map fun t => (t, r.2) := by
          rw [parseAll_cons, Option.bind_assoc]
          cases hr : parse s e with
          | none => rfl
          | some r =>
            simp only [Option.bind_some, ih (h.2 r hr)]
            cases parseAll parse r.1 es with
            | none => rfl
            | some u =>
              simp only [Option.bind_some, Option.map_some]
              cases exec u.1 c <;> rfl

/-- **The rule for batches.** If the command of every input commutes with the parsing of each input
behind it, a batch does what its inputs do one by one.  `P` is what the commands of inputs have in
common. -/
theorem batched_eq_stepwise {P : κ → Prop}
    (hP : ∀ s e t c, parse s e = some (t, some c) → P c)
    (hC : ∀ s c e, P c → C s c e → Commutes parse exec s c e) {es : List ε} {s : σ}
    (h : EachPending parse exec C s es) : batched parse exec s es = stepwise parse exec s es := by
  induction es generalizing s with
  | nil => rfl
  | cons e es ih =>
    rw [stepwise, batched_singleton, batched_cons, Option.bind_assoc]
    cases hr : parse s e with
    | none => rfl
    | some r =>
      obtain ⟨hpending, hrest⟩ := h r hr
      obtain ⟨t, _ | c⟩ := r
      · simpa [batched] using ih (hrest t rfl)
      · -- the command of `e` moves back over the other inputs
        have hmove := exec_parseAll hC (hP s e t c hr) (hpending c rfl)
        have hnext : ∀ v, exec t c = some v →
            batched parse exec v es = stepwise parse exec v es := by
          intro v hv
          refine ih (hrest v ?_)
          rw [Option.toList_some, execAll_cons, hv]
          rfl
        simp only [Option.bind_some, Option.toList_some, execAll_cons, execAll_nil]
        calc (parseAll parse t es).bind (fun u =>
              ((exec u.1 c).bind fun v => some v).bind fun v => execAll exec v u.2)
            = ((parseAll parse t es).bind fun r => (exec r.1 c).map fun v => (v, r.2)).bind
                fun r => execAll exec r.1 r.2 := by
              cases hparsed : parseAll parse t es with
              | none => rfl
              | some u => cases hexec' : exec u.1 c <;> simp [hexec']
          _ = (exec t c).bind fun v => batched parse exec v es := by
              rw [← hmove, Option.bind_assoc]
              rfl
          _ = ((exec t c).bind fun v => some v).bind fun v => stepwise parse exec v es := by
              cases hv : exec t c with
              | none => rfl
              | some v => exact hnext v hv

end Batching
