import SerialChrono.MainSpec

/-!
# Extra blanks and letter case in a command line

The protocol ignores letter case and extra blanks.  Main does so for the case of the command
word, but `explode` keeps an empty token for every extra blank, and the handlers look at the
number of tokens and at the third one.

`CommandLine` is a line `<source> <command> <args...>` with single blanks, and `Respelling` a
way of writing it with more of them and another letter case of the command.  The main result,
`blanks_ignored_iff`, says for which lines and which blanks the answer of main and the status
it leaves stay the same, whatever the status before.  The letter case never matters.
-/

namespace SerialChrono

open CText

/-! ## Lines -/

/-- A command line: its words contain no blank, and only the source may be empty. -/
structure CommandLine where
  source : CString
  word : CString
  args : List CString
  source_noBlank : ' ' ∉ source
  word_ne_nil : word ≠ []
  word_noBlank : ' ' ∉ word
  args_noBlank : ∀ a ∈ args, ' ' ∉ a

/-- Another way to write a command line. -/
structure Respelling (l : CommandLine) where
  word : CString
  /-- The command word, up to letter case. -/
  word_eq : toLower word = toLower l.word
  /-- Extra blanks before the command word. -/
  before : ℕ
  /-- Extra blanks before each argument. -/
  between : ℕ → ℕ
  /-- Extra blanks at the end. -/
  after : ℕ

/-- The line as it is. -/
def CommandLine.plain (l : CommandLine) : Respelling l := ⟨l.word, rfl, 0, fun _ => 0, 0⟩

namespace Respelling

variable {l : CommandLine}

/-- The tokens the arguments from number `i` on are cut into. -/
def argTokens (between : ℕ → ℕ) : (i : ℕ) → List CString → Tokens
  | _, [] => []
  | i, a :: args => List.replicate (between i) [] ++ a :: argTokens between (i + 1) args

/-- The tokens after the command word. -/
def rest (b : Respelling l) : Tokens :=
  argTokens b.between 0 l.args ++ List.replicate b.after []

/-- The tokens after the source. -/
def tail (b : Respelling l) : Tokens := List.replicate b.before [] ++ b.word :: b.rest

/-- The line: every token after the source follows a blank. -/
def text (b : Respelling l) : CString := l.source ++ b.tail.flatMap fun token => ' ' :: token

/-- The number of tokens `explode` finds. -/
def tokenCount (b : Respelling l) : ℕ := b.tail.length + 1

end Respelling

/-! ## When nothing changes -/

namespace Respelling

variable {l : CommandLine}

/-- The first argument, if any, is still the third token, or reads like an empty one. -/
def FirstKept (b : Respelling l) (blank : CString → Prop) : Prop :=
  ∀ a ∈ l.args.head?, b.between 0 = 0 ∨ blank a

/-- The command still has no argument, or one, or more than one; or its only argument, which
makes way for an increment, means the same as one. -/
def CountKept (b : Respelling l) (increments : CString → Prop) : Prop :=
  match l.args with
  | [] => b.after ≠ 1
  | [a] => b.between 0 + b.after = 0 ∨ increments a
  | _ :: _ :: _ => True

/-- The blanks after the command word do not change what its handler does. -/
def ArgsKept (b : Respelling l) : Command → Prop
  | .start => b.FirstKept fun a => strtol a = 0
  | .int | .stop => (l.args = [] → b.after = 0) ∧ b.FirstKept fun a => strtol a = 0
  | .data => (l.args = [] → b.after = 0) ∧ b.FirstKept fun a => parseDataArg a = none
  | .fault | .refusal | .turn => b.CountKept fun a => a = "+".toList
  | .elim => b.CountKept fun a => a = "+".toList ∨ a ≠ "-".toList ∧ atoi a ≠ 0
  | _ => True

/-- The lines that main has no defined result for although their tokens fit. -/
def Undefined (l : CommandLine) : Prop :=
  match findCommand (toLower l.word) with
  | none => True
  | some c => c = .data ∧ ∃ a ∈ l.args.head?, parseDataArg a = none

/-- The condition under which the extra blanks are ignored. -/
def Ignored (b : Respelling l) : Prop :=
  if b.tokenCount ≤ 32 then
    match findCommand (toLower l.word) with
    | none => b.before = 0
    | some c => if b.before = 0 then b.ArgsKept c else c.quiet = true
  else 32 < l.plain.tokenCount ∨ Undefined l

end Respelling

/-- What main answers to a line, and the status it leaves. -/
def lineOutcome (config : Configuration) (line : CString) : Option (Response × Status) :=
  (mainFront config line).map fun front => (front.response, front.config.status)

/-! ## The tokens of a respelt line -/

namespace Respelling

variable {l : CommandLine}

lemma noBlank_argTokens {between : ℕ → ℕ} {args : List CString} (h : ∀ a ∈ args, ' ' ∉ a)
    (i : ℕ) : ∀ token ∈ argTokens between i args, ' ' ∉ token := by
  induction args generalizing i with
  | nil => simp [argTokens]
  | cons a args ih =>
    intro token ht
    rcases List.mem_append.mp ht with ht | ht
    · rw [List.eq_of_mem_replicate ht]
      simp
    · rcases List.mem_cons.mp ht with rfl | ht
      · exact h token List.mem_cons_self
      · exact ih (fun a ha => h a (List.mem_cons_of_mem _ ha)) (i + 1) token ht

lemma noBlank_tail (b : Respelling l) : ∀ token ∈ b.tail, ' ' ∉ token := by
  intro token ht
  rcases List.mem_append.mp ht with ht | ht
  · rw [List.eq_of_mem_replicate ht]
    simp
  rcases List.mem_cons.mp ht with rfl | ht
  · rw [← blank_mem_toLower, b.word_eq, blank_mem_toLower]
    exact l.word_noBlank
  rcases List.mem_append.mp ht with ht | ht
  · exact noBlank_argTokens l.args_noBlank 0 token ht
  · rw [List.eq_of_mem_replicate ht]
    simp

/-- The blanks of the line separate the source and the tokens after it. -/
lemma splitOn_text (b : Respelling l) : b.text.splitOn ' ' = l.source :: b.tail := by
  rw [text, ← intercalate_eq_append_flatMap]
  refine List.splitOn_intercalate ' ' (fun token ht => ?_) (by simp)
  rcases List.mem_cons.mp ht with rfl | ht
  · exact l.source_noBlank
  · exact b.noBlank_tail token ht

/-- What main finds in a respelt line. -/
lemma parseLine_text (b : Respelling l) :
    parseLine b.text =
      if b.tokenCount ≤ 32 then
        if b.before = 0 then
          (findCommand (toLower l.word)).map fun c =>
            .command c (l.source :: toLower l.word :: b.rest)
        else some .empty
      else none := by
  have hsplit := b.splitOn_text
  rcases hbefore : b.before with _ | n
  · have hword : b.word ≠ [] := by
      intro h
      have hlower := b.word_eq
      rw [h] at hlower
      exact l.word_ne_nil (List.map_eq_nil_iff.mp hlower.symm)
    have htail : b.tail = b.word :: b.rest := by simp [tail, hbefore]
    have hcount : b.tokenCount ≤ 32 ↔ b.rest.length ≤ 30 := by
      rw [tokenCount, htail]
      simp only [List.length_cons]
      omega
    rw [htail] at hsplit
    simp only [parseLine_of_splitOn hsplit, hcount, hword, b.word_eq, if_false, if_true]
  · have htail : b.tail = [] :: (List.replicate n [] ++ b.word :: b.rest) := by
      simp [tail, hbefore, List.replicate_succ]
    have hcount : b.tokenCount ≤ 32 ↔
        (List.replicate n [] ++ b.word :: b.rest).length ≤ 30 := by
      rw [tokenCount, htail]
      simp only [List.length_cons]
      omega
    rw [htail] at hsplit
    simp only [parseLine_of_splitOn hsplit, hcount, if_true, Nat.add_eq_zero_iff, one_ne_zero,
      and_false, if_false]

/-- The tokens of the line as it is. -/
lemma plain_rest (l : CommandLine) : l.plain.rest = l.args := by
  have h : ∀ (args : List CString) (i : ℕ), argTokens (fun _ => 0) i args = args := by
    intro args
    induction args with
    | nil => exact fun _ => rfl
    | cons a args ih => exact fun i => by simp [argTokens, ih]
  simp [rest, CommandLine.plain, h]

end Respelling

lemma lineOutcome_text {l : CommandLine} (b : Respelling l) (config : Configuration) :
    lineOutcome config b.text =
      if b.tokenCount ≤ 32 then
        if b.before = 0 then
          (findCommand (toLower l.word)).bind fun c =>
            entryOutcome c config (l.source :: toLower l.word :: b.rest)
        else some (.ok, config.status)
      else none := by
  have hline := b.parseLine_text
  unfold lineOutcome
  split at hline
  · split at hline
    · next hcount hbefore =>
      rw [if_pos hcount, if_pos hbefore]
      cases hc : findCommand (toLower l.word) with
      | none =>
        rw [hc, Option.map_none] at hline
        rw [mainFront_none hline]
        rfl
      | some c =>
        rw [hc, Option.map_some] at hline
        rw [mainFront_command hline, Option.bind_some, entryOutcome, Option.map_map]
        congr 1
        funext r
        simp only [Function.comp_apply]
        split <;> rfl
    · next hcount hbefore =>
      rw [if_pos hcount, if_neg hbefore, mainFront_empty hline]
      rfl
  · next hcount =>
    rw [if_neg hcount, mainFront_none hline]
    rfl

/-! ## When two lines do the same -/

section

variable {config : Configuration} {source word : CString} {rest rest' : Tokens}

/-- The handler does the same for the two lists of tokens, whatever the status. -/
def SameOutcome (c : Command) (source word : CString) (rest rest' : Tokens) : Prop :=
  ∀ config, entryOutcome c config (source :: word :: rest) =
    entryOutcome c config (source :: word :: rest')

/-- A configuration with the given status. -/
def withStatus (s : Status) : Configuration := { defaultOptions with status := s }

lemma sameOutcome_start_iff :
    SameOutcome .start source word rest rest' ↔
      (rest.head?.map strtol).getD 0 = (rest'.head?.map strtol).getD 0 := by
  unfold SameOutcome
  simp only [entryOutcome_start]
  constructor
  · intro h
    have := h defaultOptions
    simpa using this
  · intro h config
    rw [h]

/-- `int` and `stop` need a timestamp to be there, and to read the same. -/
lemma sameOutcome_stamp_iff {c : Command} (hc : c = .int ∨ c = .stop) :
    SameOutcome c source word rest rest' ↔ rest.head?.map strtol = rest'.head?.map strtol := by
  unfold SameOutcome
  constructor
  · intro h
    have := h (withStatus { defaultOptions.status with startTime := 0 })
    rcases hc with rfl | rfl
    · simp only [entryOutcome_int, withStatus] at this
      cases hr : rest.head? <;> cases hr' : rest'.head? <;> simp_all
    · simp only [entryOutcome_stop, withStatus] at this
      cases hr : rest.head? <;> cases hr' : rest'.head? <;> simp_all
  · intro h config
    rcases hc with rfl | rfl
    · simp only [entryOutcome_int]
      cases hr : rest.head? <;> cases hr' : rest'.head? <;> simp_all
    · simp only [entryOutcome_stop]
      cases hr : rest.head? <;> cases hr' : rest'.head? <;> simp_all

/-- An empty third token is nothing `data` can read. -/
lemma sameOutcome_data_blank (hrest : rest.head? = some []) :
    SameOutcome .data source word rest rest' ↔
      rest' ≠ [] ∧ ∀ a ∈ rest'.head?, parseDataArg a = none := by
  unfold SameOutcome
  have hnil : parseDataArg [] = none := rfl
  have : Nonempty Configuration := ⟨defaultOptions⟩
  simp only [entryOutcome_data, hrest, hnil, Option.map_none]
  cases rest' with
  | nil => simp
  | cons a rest' => simp [eq_comm (a := none)]

lemma sameOutcome_data_of_head (h : rest.head? = rest'.head?) :
    SameOutcome .data source word rest rest' := by
  intro config
  rw [entryOutcome_data, entryOutcome_data, h]

lemma sameOutcome_count_iff {c : Command}
    (hc : c = .fault ∨ c = .refusal ∨ c = .elim ∨ c = .turn) :
    SameOutcome c source word rest rest' ↔
      ∀ s, countEffect c (restArg rest) s = countEffect c (restArg rest') s := by
  unfold SameOutcome
  simp only [entryOutcome_count _ _ _ _ hc, Option.some.injEq, Prod.mk.injEq, true_and]
  exact ⟨fun h s => h (withStatus s), fun h config => h config.status⟩

/-- A status to try the counters on. -/
def countersAt (n : ℤ) : Status :=
  { defaultOptions.status with faults := n, refusals := n, eliminated := n, numero := n }

/-- The arguments that do what an increment does, whatever the status. -/
def CountArg.Increments (c : Command) (arg : CountArg) : Prop :=
  arg = .inc ∨ c = .elim ∧ ∃ n, n ≠ 0 ∧ arg = .set n

lemma countEffect_inc_iff {c : Command}
    (hc : c = .fault ∨ c = .refusal ∨ c = .elim ∨ c = .turn) (arg : CountArg) :
    (∀ s, countEffect c .inc s = countEffect c arg s) ↔ arg.Increments c := by
  constructor
  · intro h
    -- from counters at 0 and at 1 an increment gives 1 and 2
    have h0 := h (countersAt 0)
    have h1 := h (countersAt 1)
    cases arg with
    | inc => exact Or.inl rfl
    | dec => rcases hc with rfl | rfl | rfl | rfl <;> exact absurd h0 (by decide)
    | set n =>
      rcases hc with rfl | rfl | rfl | rfl
      · have f0 : max 0 ((0 : ℤ) + 1) = max 0 (n - 0) := congrArg Status.faults h0
        have f1 : max 0 ((1 : ℤ) + 1) = max 0 (n - 0) := congrArg Status.faults h1
        omega
      · have f0 : max 0 ((0 : ℤ) + 1) = max 0 n := congrArg Status.refusals h0
        have f1 : max 0 ((1 : ℤ) + 1) = max 0 n := congrArg Status.refusals h1
        omega
      · have f0 : (1 : ℤ) = if n = 0 then 0 else 1 := congrArg Status.eliminated h0
        refine Or.inr ⟨rfl, n, ?_, rfl⟩
        rintro rfl
        exact absurd f0 (by decide)
      · have f0 : max 0 ((0 : ℤ) + 1) = max 0 n := congrArg Status.numero h0
        have f1 : max 0 ((1 : ℤ) + 1) = max 0 n := congrArg Status.numero h1
        omega
  · rintro (rfl | ⟨rfl, n, hn, rfl⟩) s
    · rfl
    · simp [countEffect, hn]

end

namespace Respelling

variable {l : CommandLine}

/-- The third token of a respelt line. -/
lemma head_rest (b : Respelling l) :
    b.rest.head? =
      match l.args with
      | [] => if b.after = 0 then none else some []
      | a :: _ => if b.between 0 = 0 then some a else some [] := by
  unfold rest
  cases l.args with
  | nil => cases b.after <;> simp [argTokens, List.replicate_succ]
  | cons a args => cases hb : b.between 0 <;> simp [argTokens, hb, List.replicate_succ]

lemma restArg_rest_nil (b : Respelling l) (h : l.args = []) :
    restArg b.rest = if b.after = 1 then .set 0 else .inc := by
  have hrest : b.rest = List.replicate b.after [] := by simp [rest, h, argTokens]
  split
  · next hone =>
    rw [hrest, hone]
    decide
  · next hone => exact restArg_of_length (by simpa [hrest] using hone)

lemma restArg_rest_singleton (b : Respelling l) {a : CString} (h : l.args = [a]) :
    restArg b.rest = if b.between 0 + b.after = 0 then parseCountArg a else .inc := by
  have hrest : b.rest = List.replicate (b.between 0) [] ++ [a] ++ List.replicate b.after [] := by
    simp [rest, h, argTokens]
  split
  · next hzero =>
    obtain ⟨hbetween, hafter⟩ := Nat.add_eq_zero_iff.mp hzero
    simp [hrest, hbetween, hafter, restArg]
  · next hzero =>
    refine restArg_of_length ?_
    simp only [hrest, List.length_append, List.length_replicate, List.length_singleton]
    omega

lemma restArg_rest_many (b : Respelling l) {a a' : CString} {args : List CString}
    (h : l.args = a :: a' :: args) : restArg b.rest = .inc := by
  refine restArg_of_length ?_
  simp only [rest, h, argTokens, List.length_append, List.length_cons]
  omega

lemma parseCountArg_increments (c : Command) (a : CString) :
    (parseCountArg a).Increments c ↔
      a = "+".toList ∨ c = .elim ∧ a ≠ "-".toList ∧ atoi a ≠ 0 := by
  unfold CountArg.Increments parseCountArg
  by_cases hplus : a = "+".toList
  · simp [hplus]
  · by_cases hminus : a = "-".toList
    · simp [hminus]
    · simp only [hplus, hminus, if_false, reduceCtorEq, CountArg.set.injEq, exists_eq_right',
        false_or, ne_eq, not_false_eq_true, true_and]

/-- A command that moves a counter is unaffected exactly when its argument still is one, or
still increments. -/
lemma sameOutcome_count (b : Respelling l) (source word : CString) {c : Command}
    (hc : c = .fault ∨ c = .refusal ∨ c = .elim ∨ c = .turn) :
    SameOutcome c source word b.rest l.args ↔
      b.CountKept fun a => a = "+".toList ∨ c = .elim ∧ a ≠ "-".toList ∧ atoi a ≠ 0 := by
  rw [sameOutcome_count_iff hc, CountKept]
  rcases hargs : l.args with _ | ⟨a, _ | ⟨a', args⟩⟩
  · rw [b.restArg_rest_nil hargs]
    by_cases hone : b.after = 1
    · have hblank := countEffect_inc_iff hc (.set 0)
      simp only [eq_comm (a := countEffect c .inc _)] at hblank
      simp [hone, restArg, hblank, CountArg.Increments]
    · simp [hone, restArg]
  · dsimp only
    rw [b.restArg_rest_singleton hargs, ← parseCountArg_increments]
    by_cases hzero : b.between 0 + b.after = 0
    · simp [hzero, restArg]
    · simp only [hzero, if_false, restArg, countEffect_inc_iff hc, false_or]
  · rw [b.restArg_rest_many hargs]
    simp [restArg]

/-- A command that needs a timestamp is unaffected exactly when it still has none, or the same
one. -/
lemma sameOutcome_stamp (b : Respelling l) (source word : CString) {c : Command}
    (hc : c = .int ∨ c = .stop) :
    SameOutcome c source word b.rest l.args ↔
      (l.args = [] → b.after = 0) ∧ b.FirstKept fun a => strtol a = 0 := by
  rw [sameOutcome_stamp_iff hc, b.head_rest, FirstKept]
  rcases l.args with _ | ⟨a, args⟩
  · by_cases hafter : b.after = 0 <;> simp [hafter]
  · by_cases hb : b.between 0 = 0 <;> simp [hb, eq_comm (a := (0 : ℤ))]

/-- The blanks after the command word are ignored exactly when the arguments are kept. -/
lemma sameOutcome_iff_argsKept (b : Respelling l) (source word : CString) (c : Command) :
    SameOutcome c source word b.rest l.args ↔ b.ArgsKept c := by
  have hhead := b.head_rest
  cases c
  case start =>
    rw [sameOutcome_start_iff, hhead, ArgsKept, FirstKept]
    rcases l.args with _ | ⟨a, args⟩
    · cases b.after <;> simp
    · by_cases hb : b.between 0 = 0 <;> simp [hb, eq_comm (a := (0 : ℤ))]
  case fault => simp [b.sameOutcome_count, ArgsKept]
  case refusal => simp [b.sameOutcome_count, ArgsKept]
  case turn => simp [b.sameOutcome_count, ArgsKept]
  case elim => simp [b.sameOutcome_count, ArgsKept]
  case data =>
    rw [ArgsKept, FirstKept]
    rcases hargs : l.args with _ | ⟨a, args⟩
    · simp only [hargs] at hhead
      by_cases hafter : b.after = 0
      · rw [if_pos hafter] at hhead
        exact iff_of_true (sameOutcome_data_of_head hhead) (by simp [hafter])
      · rw [if_neg hafter] at hhead
        simp [sameOutcome_data_blank hhead, hafter]
    · simp only [hargs] at hhead
      by_cases hb : b.between 0 = 0
      · rw [if_pos hb] at hhead
        exact iff_of_true (sameOutcome_data_of_head hhead) (by simp [hb])
      · rw [if_neg hb] at hhead
        simp [sameOutcome_data_blank hhead, hb]
  case int => exact b.sameOutcome_stamp source word (Or.inl rfl)
  case stop => exact b.sameOutcome_stamp source word (Or.inr rfl)
  case reset => simp [SameOutcome, entryOutcome_reset, ArgsKept]
  all_goals
    refine iff_of_true (fun config => ?_) trivial
    rw [entryOutcome_quiet _ _ _ _ rfl, entryOutcome_quiet _ _ _ _ rfl]

end Respelling

/-- No argument leaves a counter alone both at 0 and at 1. -/
lemma exists_countEffect_ne {c : Command}
    (hc : c = .fault ∨ c = .refusal ∨ c = .elim ∨ c = .turn) (arg : CountArg) :
    ∃ s, countEffect c arg s ≠ s := by
  by_contra hall
  push Not at hall
  have h0 := hall (countersAt 0)
  have h1 := hall (countersAt 1)
  cases arg with
  | inc => rcases hc with rfl | rfl | rfl | rfl <;> revert h0 <;> decide
  | dec => rcases hc with rfl | rfl | rfl | rfl <;> revert h1 <;> decide
  | set n =>
    rcases hc with rfl | rfl | rfl | rfl
    · have f0 : max 0 (n - 0) = (0 : ℤ) := congrArg Status.faults h0
      have f1 : max 0 (n - 0) = (1 : ℤ) := congrArg Status.faults h1
      omega
    · have f0 : max 0 n = (0 : ℤ) := congrArg Status.refusals h0
      have f1 : max 0 n = (1 : ℤ) := congrArg Status.refusals h1
      omega
    · have f0 : (if n = 0 then 0 else 1) = (0 : ℤ) := congrArg Status.eliminated h0
      have f1 : (if n = 0 then 0 else 1) = (1 : ℤ) := congrArg Status.eliminated h1
      omega
    · have f0 : max 0 n = (0 : ℤ) := congrArg Status.numero h0
      have f1 : max 0 n = (1 : ℤ) := congrArg Status.numero h1
      omega

/-- A command that is not quiet does something to some status, or rejects its line, or has no
defined result. -/
lemma exists_outcome_ne {c : Command} (hc : c.quiet = false) (source word : CString)
    (rest : Tokens) :
    ∃ config, entryOutcome c config (source :: word :: rest) ≠ some (.ok, config.status) := by
  have hcount : c = .fault ∨ c = .refusal ∨ c = .elim ∨ c = .turn →
      ∃ config, entryOutcome c config (source :: word :: rest) ≠ some (.ok, config.status) := by
    intro hc
    obtain ⟨s, hs⟩ := exists_countEffect_ne hc (restArg rest)
    refine ⟨withStatus s, ?_⟩
    rw [entryOutcome_count _ _ _ _ hc]
    simpa [withStatus] using hs
  cases c <;> simp only [Command.quiet, Bool.true_eq_false] at hc
  case start =>
    refine ⟨withStatus { defaultOptions.status with
      startTime := (rest.head?.map strtol).getD 0 + 1 }, fun h => ?_⟩
    have := congrArg Status.startTime (Prod.mk.inj (Option.some.inj
      ((entryOutcome_start _ source word rest).symm.trans h))).2
    simp [withStatus] at this
  case int =>
    refine ⟨defaultOptions, ?_⟩
    rw [entryOutcome_int, if_pos (by decide)]
    simp
  case stop =>
    refine ⟨defaultOptions, ?_⟩
    rw [entryOutcome_stop, if_pos (by decide)]
    simp
  case data =>
    refine ⟨withStatus (countersAt 2), ?_⟩
    rw [entryOutcome_data]
    cases rest.head? with
    | none => simp
    | some t =>
      intro h
      cases hd : parseDataArg t with
      | none => simp [hd] at h
      | some d =>
        simp only [hd, Option.map_some] at h
        have he : (if d.eliminated = 0 then 0 else 1) = (2 : ℤ) :=
          congrArg Status.eliminated (Prod.mk.inj (Option.some.inj h)).2
        omega
  case reset =>
    refine ⟨withStatus { defaultOptions.status with startTime := 0 }, ?_⟩
    rw [entryOutcome_reset]
    decide
  all_goals exact hcount (by simp)

namespace Respelling

variable {l : CommandLine}

lemma tail_plain (l : CommandLine) : l.plain.tail = l.word :: l.args := by
  rw [tail, plain_rest]
  rfl

lemma tokenCount_plain_le (b : Respelling l) : l.plain.tokenCount ≤ b.tokenCount := by
  have hargs : ∀ (args : List CString) (i : ℕ), args.length ≤ (argTokens b.between i args).length := by
    intro args
    induction args with
    | nil => simp
    | cons a args ih =>
      intro i
      have := ih (i + 1)
      simp only [argTokens, List.length_append, List.length_cons]
      omega
  have := hargs l.args 0
  rw [tokenCount, tokenCount, tail_plain]
  simp only [tail, rest, List.length_append, List.length_cons]
  omega

/-- **When extra blanks are ignored.** A command line and a way of writing it with more blanks
and another letter case of the command get the same answer and leave the same status, whatever
the configuration, if and only if the blanks are of the kind `Ignored` describes. -/
theorem blanks_ignored_iff (b : Respelling l) :
    (∀ config, lineOutcome config b.text = lineOutcome config l.plain.text) ↔ b.Ignored := by
  have : Nonempty Configuration := ⟨defaultOptions⟩
  have hle := b.tokenCount_plain_le
  have hbefore : l.plain.before = 0 := rfl
  simp only [lineOutcome_text, hbefore, if_true, plain_rest, Ignored]
  by_cases hfits : b.tokenCount ≤ 32
  · -- the line can be tokenized with the blanks, and so without them
    simp only [if_pos hfits, if_pos (hle.trans hfits)]
    cases hc : findCommand (toLower l.word) with
    | none =>
      by_cases hb : b.before = 0 <;> simp [hb]
    | some c =>
      by_cases hb : b.before = 0
      · simp only [hb, if_true, Option.bind_some]
        exact b.sameOutcome_iff_argsKept _ _ c
      · simp only [hb, if_false, Option.bind_some]
        cases hquiet : c.quiet with
        | true => simp [entryOutcome_quiet _ _ _ _ hquiet]
        | false =>
          obtain ⟨config, hne⟩ := exists_outcome_ne hquiet l.source (toLower l.word) l.args
          simp only [Bool.false_eq_true, iff_false, not_forall]
          exact ⟨config, fun h => hne h.symm⟩
  · simp only [if_neg hfits]
    by_cases hplain : l.plain.tokenCount ≤ 32
    · -- only the line without the blanks can be tokenized
      simp only [if_pos hplain, Undefined, not_lt.mpr hplain, false_or]
      cases hc : findCommand (toLower l.word) with
      | none => simp
      | some c =>
        have hnone := fun config =>
          entryOutcome_eq_none_iff config l.source (toLower l.word) l.args c
        simp only [Option.bind_some, eq_comm (a := none), hnone, forall_const]
    · simp only [if_neg hplain, implies_true, true_iff]
      exact Or.inl (not_le.mp hplain)

end Respelling

/-- `fault 3` with one blank more before the 3 adds a single fault. -/
theorem blanks_not_ignored :
    ¬ ∀ (l : CommandLine) (b : Respelling l) (config : Configuration),
      lineOutcome config b.text = lineOutcome config l.plain.text := by
  intro h
  have := h ⟨"comm_server".toList, "fault".toList, ["3".toList], by decide, by decide, by decide,
    by decide⟩ ⟨"fault".toList, rfl, 0, fun _ => 1, 0⟩ defaultOptions
  revert this
  decide

end SerialChrono
