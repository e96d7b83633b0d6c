import SerialChrono.StartUp.Getopt

/-!
# `getopt_long` reads the arguments from left to right (`getopt.c`)

`scanArgs` reads an argument vector once, and moves nothing: the options in their order, each with
its argument, and the other arguments set aside.  `getopt_scan` says that the calls of
`getopt_long` return just these options, wherever the other arguments stand, and that in the end
the vector has the options first and the other arguments behind them, each in their order.

The invariant is `Layout`: behind the arguments that are done with come the ones that have been
skipped, and behind them the options found since, which the next exchange brings before them.
-/

namespace SerialChrono

open CText CycleRotation

/-! ## Reading from left to right -/

/-- An option and its argument. -/
abbrev FoundOption := Char × Option CString

section

variable (options : CString) (longOptions : List LongOption)

/-- The option in an argument with two hyphens, with another argument behind it, and whether that
one belongs to it. -/
def longOf (current : CString) (next : Option CString) : FoundOption × Bool :=
  let (name, hasEqual) := splitLong current
  match findLong longOptions name with
  | none => ((badch, none), false)
  | some o =>
    match o.hasArg, hasEqual with
    | .noArgument, some _ => ((badch, none), false)
    | .noArgument, none => ((o.val, none), false)
    | _, some value => ((o.val, some value), false)
    | .requiredArgument, none =>
      match next with
      | some value => ((o.val, some value), true)
      | none => ((badch, none), false)
    | .optionalArgument, none => ((o.val, none), false)

/-- The options in an argument, behind its hyphen. -/
def optionsOf : (place : CString) → (next : Option CString) → List FoundOption × Bool
  | [], _ => ([], false)
  | c :: place, next =>
    if c = '-' then
      let (found, used) := longOf longOptions place next
      ([found], used)
    else
      match argKind options c with
      | none => ((badch, none) :: (optionsOf place next).1, (optionsOf place next).2)
      | some .noArgument => ((c, none) :: (optionsOf place next).1, (optionsOf place next).2)
      | some kind =>
        if place ≠ [] then ([(c, some place)], false)
        else if kind = .requiredArgument then
          match next with
          | some value => ([(c, some value)], true)
          | none => ([(badch, none)], false)
        else ([(c, none)], false)

/-- The number of arguments behind an option that belong to it. -/
def usedArgs (used : Bool) : ℕ := if used then 1 else 0

structure Scanned where
  found : List FoundOption
  /-- The options with their arguments, as they stand in the vector. -/
  taken : List CString
  skipped : List CString

def scanArgs : List CString → Scanned
  | [] => ⟨[], [], []⟩
  | ['-', '-'] :: args => ⟨[], [['-', '-']], args⟩
  | ('-' :: c :: place) :: args =>
    let found := optionsOf options longOptions (c :: place) args.head?
    let rest := scanArgs (args.drop (usedArgs found.2))
    ⟨found.1 ++ rest.found,
      ('-' :: c :: place) :: (args.take (usedArgs found.2) ++ rest.taken), rest.skipped⟩
  | arg :: args =>
    let rest := scanArgs args
    ⟨rest.found, rest.taken, arg :: rest.skipped⟩
termination_by args => args.length

end

/-! ## The exchange -/

lemma gcd_eq (a b : ℕ) (hb : 0 < b) : gcd a b hb = a.gcd b := by
  induction b using Nat.strongRecOn generalizing a with
  | ind b ih =>
    unfold gcd
    split_ifs with h
    · exact (Nat.gcd_eq_right (Nat.dvd_of_mod_eq_zero h)).symm
    · rw [ih (a % b) (Nat.mod_lt a hb), Nat.gcd_comm b, ← Nat.gcd_rec, Nat.gcd_comm]

/-- The two blocks change places. -/
lemma permuteArgs_eq (before first second after : List CString) (hfirst : first ≠ [])
    (hsecond : second ≠ []) :
    permuteArgs before.length (before.length + first.length)
        (before.length + first.length + second.length)
        (before ++ (first ++ (second ++ after))) =
      some (before ++ (second ++ (first ++ after))) := by
  have hpos := List.length_pos_iff.mpr hsecond
  unfold permuteArgs
  simp only [Nat.add_sub_cancel_left, gcd_eq, dif_pos hpos]
  have htotal : before.length + first.length + second.length - before.length =
      first.length + second.length := by omega
  rw [htotal, ← exchangeAll_blocks before first second after hfirst hsecond, exchangeAll,
    blockLeaders, List.foldl_map]
  rfl

/-! ## The layout of the vector -/

/-- The vector: the arguments that are done with, the ones that have been skipped, the options found
since, and the rest. -/
structure Layout (s : Getopt) (before skipped behind rest : List CString) : Prop where
  argv : s.argv = before ++ (skipped ++ (behind ++ rest))
  optind : s.optind = before.length + skipped.length + behind.length
  start : s.nonoptStart = if skipped = [] then none else some before.length
  end_ : s.nonoptEnd = none ∧ behind = [] ∨
    skipped ≠ [] ∧ s.nonoptEnd = some (before.length + skipped.length)

/-- Between two options: if options have been found behind the skipped arguments, there are some. -/
structure Between (s : Getopt) (taken skipped rest : List CString) : Prop where
  place : s.place = []
  layout : ∃ before behind, taken = before ++ behind ∧ Layout s before skipped behind rest ∧
    (s.nonoptEnd ≠ none → behind ≠ [])

/-- Within an option: the place where it stands has been marked if arguments have been skipped. -/
structure Within (s : Getopt) (taken skipped rest : List CString) : Prop where
  optarg : s.optarg = none
  layout : ∃ before behind, taken = before ++ behind ∧ Layout s before skipped behind rest ∧
    (skipped ≠ [] → s.nonoptEnd ≠ none)

section

variable {s : Getopt} {before skipped behind taken rest : List CString} {arg : CString}

lemma Between.withOptarg (h : Between s taken skipped rest) (optarg : Option CString) :
    Between { s with optarg } taken skipped rest := by
  obtain ⟨hplace, before, behind, htaken, hlayout, hsettled⟩ := h
  exact ⟨hplace, before, behind, htaken,
    ⟨hlayout.argv, hlayout.optind, hlayout.start, hlayout.end_⟩, hsettled⟩

lemma Layout.get_rest (h : Layout s before skipped behind rest) (k : ℕ) :
    s.argv[s.optind + k]? = rest[k]? := by
  have hsplit : s.argv = (before ++ (skipped ++ behind)) ++ rest := by
    rw [h.argv]
    simp only [List.append_assoc]
  rw [hsplit, h.optind, List.getElem?_append_right (by simp only [List.length_append]; omega)]
  congr 1
  simp only [List.length_append]
  omega

/-- The end of the options. -/
lemma Between.finish (h : Between s taken skipped rest) :
    ∃ t, s.finish = some t ∧ t.argv = taken ++ (skipped ++ rest) ∧ t.optind = taken.length := by
  obtain ⟨hplace, before, behind, rfl, hlayout, hsettled⟩ := h
  have hstart := hlayout.start
  unfold Getopt.finish
  rcases hlayout.end_ with ⟨hend, rfl⟩ | ⟨hskipped, hend⟩
  · by_cases hskipped : skipped = []
    · rw [if_pos hskipped] at hstart
      rw [hstart, hend]
      refine ⟨_, rfl, ?_, ?_⟩
      · simp [hlayout.argv]
      · simp [hlayout.optind, hskipped]
    · rw [if_neg hskipped] at hstart
      rw [hstart, hend]
      refine ⟨_, rfl, ?_, ?_⟩
      · simp [hlayout.argv]
      · simp
  · have hbehind : behind ≠ [] := hsettled (by rw [hend]; exact Option.some_ne_none _)
    rw [if_neg hskipped] at hstart
    rw [hstart, hend]
    simp only [hlayout.argv, hlayout.optind, permuteArgs_eq before skipped behind rest hskipped
      hbehind, Option.map_some]
    refine ⟨_, rfl, ?_, ?_⟩
    · simp
    · simp only [List.length_append]
      omega

/-- An argument that is no option is skipped. -/
lemma Between.skip (h : Between s taken skipped (arg :: rest)) :
    ∃ t, s.skip = some t ∧ t.optarg = s.optarg ∧ Between t taken (skipped ++ [arg]) rest := by
  obtain ⟨hplace, before, behind, rfl, hlayout, hsettled⟩ := h
  have hstart := hlayout.start
  have hne : skipped ++ [arg] ≠ [] := by simp
  unfold Getopt.skip
  rcases hlayout.end_ with ⟨hend, rfl⟩ | ⟨hskipped, hend⟩
  · by_cases hskipped : skipped = []
    · subst hskipped
      rw [if_pos rfl] at hstart
      rw [hstart]
      refine ⟨_, rfl, rfl, rfl, before, [], rfl, ⟨?_, ?_, ?_, .inl ⟨hend, rfl⟩⟩, ?_⟩
      · simp [hlayout.argv]
      · simp [hlayout.optind]
      · simp [hlayout.optind]
      · exact fun h => absurd hend h
    · rw [if_neg hskipped] at hstart
      rw [hstart, hend]
      refine ⟨_, rfl, rfl, rfl, before, [], rfl, ⟨?_, ?_, ?_, .inl ⟨rfl, rfl⟩⟩,
        fun h => absurd rfl h⟩
      · simp [hlayout.argv]
      · simp [hlayout.optind, Nat.add_assoc]
      · simp
  · have hbehind : behind ≠ [] := hsettled (by rw [hend]; exact Option.some_ne_none _)
    rw [if_neg hskipped] at hstart
    rw [hstart, hend]
    simp only [hlayout.argv, hlayout.optind, permuteArgs_eq before skipped behind (arg :: rest)
      hskipped hbehind, Option.map_some]
    refine ⟨_, rfl, rfl, rfl, before ++ behind, [], (List.append_nil _).symm,
      ⟨?_, ?_, ?_, .inl ⟨rfl, rfl⟩⟩, fun h => absurd rfl h⟩
    · simp
    · simp only [List.length_append, List.length_cons, List.length_nil]
      omega
    · rw [if_neg hne]
      simp only [List.length_append, Option.some.injEq]
      omega

/-- The place of an option is marked. -/
lemma Between.markOption (h : Between s taken skipped rest) (hoptarg : s.optarg = none) :
    Within s.markOption taken skipped rest := by
  obtain ⟨hplace, before, behind, htaken, hlayout, hsettled⟩ := h
  unfold Getopt.markOption
  split_ifs with hmark
  · obtain ⟨hstart, hend⟩ := hmark
    have hskipped : skipped ≠ [] := fun hnil => hstart (by rw [hlayout.start, if_pos hnil])
    have hbehind : behind = [] := by
      rcases hlayout.end_ with ⟨-, hbehind⟩ | ⟨-, hsome⟩
      · exact hbehind
      · rw [hend] at hsome
        cases hsome
    subst hbehind
    refine ⟨hoptarg, before, [], htaken,
      ⟨hlayout.argv, hlayout.optind, hlayout.start, .inr ⟨hskipped, ?_⟩⟩, fun _ => by simp⟩
    simp [hlayout.optind]
  · refine ⟨hoptarg, before, behind, htaken, hlayout, fun hskipped hend => hmark ⟨?_, hend⟩⟩
    rw [hlayout.start, if_neg hskipped]
    exact Option.some_ne_none _

/-- An option and what belongs to it are done with. -/
lemma Within.done {args : List CString} (h : Within s taken skipped (args ++ rest))
    (hargs : args ≠ []) {t : Getopt} (hargv : t.argv = s.argv)
    (hoptind : t.optind = s.optind + args.length) (hstart : t.nonoptStart = s.nonoptStart)
    (hend : t.nonoptEnd = s.nonoptEnd) (hplace : t.place = []) :
    Between t (taken ++ args) skipped rest := by
  obtain ⟨hoptarg, before, behind, rfl, hlayout, hmarked⟩ := h
  have hlayout_end := hlayout.end_
  refine ⟨hplace, ?_⟩
  by_cases hskipped : skipped = []
  · subst hskipped
    rcases hlayout_end with ⟨hnone, rfl⟩ | ⟨hne, -⟩
    · refine ⟨before ++ args, [], by simp, ⟨?_, ?_, ?_, .inl ⟨hend.trans hnone, rfl⟩⟩,
        fun h => absurd (hend.trans hnone) h⟩
      · simp [hargv, hlayout.argv]
      · simp [hoptind, hlayout.optind]
      · rw [hstart, hlayout.start]
        simp
    · exact absurd rfl hne
  · rcases hlayout_end with ⟨hnone, -⟩ | ⟨-, hsome⟩
    · exact absurd hnone (hmarked hskipped)
    · refine ⟨before, behind ++ args, by simp, ⟨?_, ?_, ?_, .inr ⟨hskipped, hend.trans hsome⟩⟩,
        fun _ => by simp [hargs]⟩
      · simp [hargv, hlayout.argv]
      · simp only [hoptind, hlayout.optind, List.length_append]
        omega
      · rw [hstart, hlayout.start]

lemma Between.endOfOptions (h : Between s taken skipped rest)
    (hmarked : s.nonoptStart ≠ none → s.nonoptEnd ≠ none) :
    ∃ t, s.endOfOptions = some t ∧ t.argv = taken ++ (skipped ++ rest) ∧
      t.optind = taken.length := by
  obtain ⟨t, hfinish, hargv, hoptind⟩ := h.finish
  obtain ⟨hplace, before, behind, rfl, hlayout, hsettled⟩ := h
  have hstart := hlayout.start
  unfold Getopt.endOfOptions
  by_cases hskipped : skipped = []
  · subst hskipped
    rw [if_pos rfl] at hstart
    rw [hstart]
    refine ⟨_, rfl, ?_, ?_⟩
    · simp [hlayout.argv]
    · simp [hlayout.optind]
  · rw [if_neg hskipped] at hstart
    obtain ⟨end_, hend⟩ := Option.ne_none_iff_exists'.mp
      (hmarked (by rw [hstart]; exact Option.some_ne_none _))
    rw [hstart, hend]
    exact ⟨t, hfinish, hargv, hoptind⟩

@[simp] lemma place_markOption (s : Getopt) : s.markOption.place = s.place := by
  unfold Getopt.markOption
  split_ifs <;> rfl

lemma optind_markOption (s : Getopt) : s.markOption.optind = s.optind := by
  unfold Getopt.markOption
  split_ifs <;> rfl

lemma marked_markOption (s : Getopt) :
    s.markOption.nonoptStart ≠ none → s.markOption.nonoptEnd ≠ none := by
  unfold Getopt.markOption
  split_ifs with hmark
  · exact fun _ => Option.some_ne_none _
  · exact fun hstart hend => hmark ⟨hstart, hend⟩

end

/-! ## The search for the next option -/

section

variable {s : Getopt} {taken skipped rest : List CString} (fuel : ℕ)

lemma search_nil (h : Between s taken skipped []) :
    ∃ t, s.search (fuel + 1) = some (false, t) ∧ t.argv = taken ++ skipped ∧
      t.optind = taken.length := by
  obtain ⟨t, hfinish, hargv, hoptind⟩ := h.finish
  obtain ⟨-, before, behind, rfl, hlayout, -⟩ := h
  refine ⟨t, ?_, by rw [hargv, List.append_nil], hoptind⟩
  have hget := hlayout.get_rest 0
  rw [Getopt.search, show s.argv[s.optind]? = none from hget, hfinish]
  rfl

lemma search_end (h : Between s taken skipped (['-', '-'] :: rest)) (hoptarg : s.optarg = none) :
    ∃ t, s.search (fuel + 1) = some (false, t) ∧
      t.argv = taken ++ [['-', '-']] ++ (skipped ++ rest) ∧ t.optind = taken.length + 1 := by
  have hwithin := h.markOption hoptarg
  have hbetween : Between { s.markOption with optind := s.optind + 1 } (taken ++ [['-', '-']])
      skipped rest :=
    @Within.done s.markOption _ _ _ [['-', '-']] hwithin (by simp) _ rfl
    (by simp [optind_markOption]) rfl rfl (by simp [h.place])
  obtain ⟨t, hend, hargv, hoptind⟩ := hbetween.endOfOptions (marked_markOption s)
  obtain ⟨-, before, behind, rfl, hlayout, -⟩ := h
  refine ⟨t, ?_, hargv, by rw [hoptind, List.length_append]; rfl⟩
  have hget := hlayout.get_rest 0
  rw [Getopt.search, show s.argv[s.optind]? = some ['-', '-'] from hget]
  simp only [hend, Option.map_some]

/-- An option is found. -/
lemma search_option {c : Char} {place : CString} (hdashes : c :: place ≠ ['-'])
    (h : Between s taken skipped (('-' :: c :: place) :: rest)) (hoptarg : s.optarg = none) :
    ∃ t, s.search (fuel + 1) = some (true, t) ∧ t.place = c :: place ∧
      Within t taken skipped (('-' :: c :: place) :: rest) := by
  have hwithin := h.markOption hoptarg
  obtain ⟨-, before, behind, rfl, hlayout, -⟩ := h
  refine ⟨{ s.markOption with place := c :: place }, ?_, rfl, ?_⟩
  · have hget := hlayout.get_rest 0
    rw [Getopt.search, show s.argv[s.optind]? = some ('-' :: c :: place) from hget]
    split
    · next heq => cases heq
    · next heq => exact absurd (by simpa using heq) hdashes
    · next heq =>
      cases heq
      rfl
    · next hne heq => exact absurd (Option.some.inj heq).symm (hne c place)
  · obtain ⟨hopt, before', behind', htaken, hlayout', hmarked⟩ := hwithin
    exact ⟨hopt, before', behind', htaken,
      ⟨hlayout'.argv, hlayout'.optind, hlayout'.start, hlayout'.end_⟩, hmarked⟩

/-- An argument that is no option. -/
def IsOperand (arg : CString) : Prop := ∀ c place, arg ≠ '-' :: c :: place

lemma not_isOperand {arg : CString} : ¬ IsOperand arg ↔ ∃ c place, arg = '-' :: c :: place := by
  simp [IsOperand]

lemma search_operand {arg : CString} (harg : IsOperand arg)
    (h : Between s taken skipped (arg :: rest)) :
    ∃ t, s.search (fuel + 1) = t.search fuel ∧ t.optarg = s.optarg ∧
      Between t taken (skipped ++ [arg]) rest := by
  obtain ⟨t, hskip, hoptarg, hbetween⟩ := h.skip
  obtain ⟨-, before, behind, rfl, hlayout, -⟩ := h
  refine ⟨t, ?_, hoptarg, hbetween⟩
  have hget := hlayout.get_rest 0
  rw [Getopt.search, show s.argv[s.optind]? = some arg from hget]
  split
  · next heq => cases heq
  · next heq => exact absurd (Option.some.inj heq) (harg _ _)
  · next heq => exact absurd (Option.some.inj heq) (harg _ _)
  · rw [hskip]
    rfl

end

/-! ## The options of an argument -/

/-- The calls of `getopt_long` from a state return these options, and end in a state. -/
inductive Returns (options : CString) (longOptions : List LongOption) :
    Getopt → List FoundOption → Getopt → Prop
  | done {s t : Getopt} :
    getoptLong options longOptions s = some (none, t) → Returns options longOptions s [] t
  | more {s t u : Getopt} {c : Char} {found : List FoundOption} :
    getoptLong options longOptions s = some (some c, t) → Returns options longOptions t found u →
      Returns options longOptions s ((c, t.optarg) :: found) u

section

variable {options : CString} {longOptions : List LongOption} {s : Getopt}
  {taken skipped rest : List CString} {arg : CString}

/-- Within an option the next call goes on where the last one has stopped. -/
lemma getoptLong_within (hplace : s.place ≠ []) (hoptarg : s.optarg = none) :
    getoptLong options longOptions s =
      some (some (s.parse options longOptions).1, (s.parse options longOptions).2) := by
  have hs : { s with optarg := none } = s := by rw [← hoptarg]
  rw [getoptLong, hs, if_neg hplace]
  rfl

lemma Returns.more_none {t u : Getopt} {c : Char} {found : List FoundOption}
    (hcall : getoptLong options longOptions s = some (some c, t)) (ht : t.optarg = none)
    (h : Returns options longOptions t found u) :
    Returns options longOptions s ((c, none) :: found) u := by
  rw [← ht]
  exact .more hcall h

/-- A long option. -/
lemma parseLongOptions_eq (hoptarg : s.optarg = none) (current : CString) :
    let found := longOf longOptions current s.argv[s.optind + 1]?
    parseLongOptions longOptions s current =
      (found.1.1,
        { s with optarg := found.1.2, optind := s.optind + 1 + usedArgs found.2 }) := by
  have hs : s.optarg = none := hoptarg
  unfold parseLongOptions longOf
  obtain ⟨name, hasEqual⟩ := splitLong current
  dsimp only
  rcases findLong longOptions name with - | ⟨longName, kind, val⟩
  · simp [usedArgs, hs]
  · cases hasEqual with
    | some value => cases kind <;> simp [usedArgs, hs]
    | none =>
      cases kind with
      | noArgument | optionalArgument => simp [usedArgs, hs]
      | requiredArgument => cases hnext : s.argv[s.optind + 1]? <;> simp [usedArgs, hs]

/-- The argument of the option is done with, and the next one if it belongs to it. -/
lemma Within.argument_done (h : Within s taken skipped (arg :: rest)) (used : Bool)
    (hused : used = true → rest ≠ []) {t : Getopt} (hargv : t.argv = s.argv)
    (hoptind : t.optind = s.optind + 1 + usedArgs used) (hstart : t.nonoptStart = s.nonoptStart)
    (hend : t.nonoptEnd = s.nonoptEnd) (hplace : t.place = []) :
    Between t (taken ++ arg :: rest.take (usedArgs used)) skipped
      (rest.drop (usedArgs used)) := by
  have hlength : (rest.take (usedArgs used)).length = usedArgs used := by
    rw [List.length_take]
    cases used with
    | false => rfl
    | true =>
      have hpos := List.length_pos_iff.mpr (hused rfl)
      simp only [usedArgs, if_true]
      omega
  have hsplit : Within s taken skipped ((arg :: rest.take (usedArgs used)) ++
      rest.drop (usedArgs used)) := by
    rwa [List.cons_append, List.take_append_drop]
  refine hsplit.done (List.cons_ne_nil _ _) hargv ?_ hstart hend hplace
  rw [hoptind, List.length_cons, hlength]
  omega

lemma Within.get_next (h : Within s taken skipped (arg :: rest)) :
    s.argv[s.optind + 1]? = rest.head? := by
  obtain ⟨-, before, behind, -, hlayout, -⟩ := h
  rw [hlayout.get_rest 1, List.getElem?_cons_succ, List.head?_eq_getElem?]

lemma longOf_none (current : CString) : (longOf longOptions current none).2 = false := by
  unfold longOf
  obtain ⟨name, hasEqual⟩ := splitLong current
  dsimp only
  rcases findLong longOptions name with - | ⟨longName, kind, val⟩
  · rfl
  · cases hasEqual <;> cases kind <;> rfl

lemma longOf_used {current : CString}
    (hused : (longOf longOptions current rest.head?).2 = true) : rest ≠ [] := by
  rintro rfl
  rw [List.head?_nil, longOf_none] at hused
  cases hused

/-- The state after a letter that leaves something of its argument. -/
lemma Within.next_letter (h : Within s taken skipped rest) (place : CString) :
    Within { s with place } taken skipped rest := by
  obtain ⟨hoptarg, before, behind, htaken, hlayout, hmarked⟩ := h
  exact ⟨hoptarg, before, behind, htaken,
    ⟨hlayout.argv, hlayout.optind, hlayout.start, hlayout.end_⟩, hmarked⟩

lemma parse_letter {c : Char} {place : CString} (hc : c ≠ '-') (hplace : s.place = c :: place) :
    s.parse options longOptions = parseLetter options s c place := by
  unfold Getopt.parse
  rw [hplace]
  split
  · next heq => exact absurd (List.cons.inj heq).1 hc
  · next heq =>
    cases heq
    rfl
  · next heq => cases heq

lemma parse_long {current : CString} (hplace : s.place = '-' :: current) :
    s.parse options longOptions =
      ((parseLongOptions longOptions s current).1,
        { (parseLongOptions longOptions s current).2 with place := [] }) := by
  unfold Getopt.parse
  rw [hplace]
  rfl

/-- The calls return the options of the argument, and then what follows it. -/
lemma returns_optionsOf {place : CString} (hne : place ≠ []) (hplace : s.place = place)
    (h : Within s taken skipped (arg :: rest)) :
    let found := optionsOf options longOptions place rest.head?
    ∃ t, Between t (taken ++ arg :: rest.take (usedArgs found.2)) skipped
        (rest.drop (usedArgs found.2)) ∧
      ∀ l u, Returns options longOptions t l u → Returns options longOptions s (found.1 ++ l) u := by
  induction place generalizing s with
  | nil => exact absurd rfl hne
  | cons c place ih =>
    have hnext := h.get_next
    have hcall := @getoptLong_within options longOptions s
      (by rw [hplace]; exact List.cons_ne_nil _ _) h.optarg
    by_cases hdash : c = '-'
    · -- a long option uses up the rest of the argument
      subst hdash
      rw [parse_long hplace, parseLongOptions_eq h.optarg, hnext] at hcall
      simp only [optionsOf, if_true]
      refine ⟨_, ?_, fun l u hl => .more hcall hl⟩
      exact h.argument_done _ longOf_used rfl rfl rfl rfl rfl
    · rw [parse_letter hdash hplace, parseLetter, hnext] at hcall
      simp only [optionsOf, if_neg hdash]
      -- a letter without an argument: the next call goes on behind it, if there is anything
      have hletter {d : Char} (hd : getoptLong options longOptions s =
          some (some d, { s with place, optind := if place = [] then s.optind + 1 else s.optind })) :
          ∃ t, Between t (taken ++ arg :: rest.take
              (usedArgs (optionsOf options longOptions place rest.head?).2)) skipped
              (rest.drop (usedArgs (optionsOf options longOptions place rest.head?).2)) ∧
            ∀ l u, Returns options longOptions t l u → Returns options longOptions s
              (((d, none) :: (optionsOf options longOptions place rest.head?).1) ++ l) u := by
        by_cases hlast : place = []
        · subst hlast
          rw [if_pos rfl] at hd
          refine ⟨_, ?_, fun l u hl => .more_none hd h.optarg hl⟩
          exact h.argument_done false (fun hused => absurd hused Bool.false_ne_true) rfl rfl rfl rfl
            rfl
        · rw [if_neg hlast] at hd
          obtain ⟨t, hbetween, hreturns⟩ := ih hlast rfl (h.next_letter place)
          exact ⟨t, hbetween, fun l u hl => .more_none hd h.optarg (hreturns l u hl)⟩
      cases hkind : argKind options c with
      | none =>
        simp only [hkind] at hcall ⊢
        exact hletter hcall
      | some kind =>
        cases kind with
        | noArgument =>
          simp only [hkind] at hcall ⊢
          exact hletter hcall
        | requiredArgument =>
          simp only [hkind] at hcall ⊢
          by_cases hlast : place = []
          · subst hlast
            simp only [ne_eq, not_true_eq_false, if_false, if_true] at hcall ⊢
            cases rest with
            | nil =>
              refine ⟨_, ?_, fun l u hl => .more_none hcall h.optarg hl⟩
              exact h.argument_done false (fun hused => absurd hused Bool.false_ne_true)
                rfl rfl rfl rfl rfl
            | cons value rest =>
              refine ⟨_, ?_, fun l u hl => .more hcall hl⟩
              exact h.argument_done true (fun _ => List.cons_ne_nil _ _)
                rfl rfl rfl rfl rfl
          · rw [if_pos hlast] at hcall
            simp only [if_pos hlast]
            refine ⟨_, ?_, fun l u hl => .more hcall hl⟩
            exact h.argument_done false (fun hused => absurd hused Bool.false_ne_true)
              rfl rfl rfl rfl rfl
        | optionalArgument =>
          simp only [hkind] at hcall ⊢
          by_cases hlast : place = []
          · subst hlast
            simp only [ne_eq, not_true_eq_false, if_false, reduceCtorEq] at hcall ⊢
            refine ⟨_, ?_, fun l u hl => .more_none hcall h.optarg hl⟩
            exact h.argument_done false (fun hused => absurd hused Bool.false_ne_true)
              rfl rfl rfl rfl rfl
          · rw [if_pos hlast] at hcall
            simp only [if_pos hlast]
            refine ⟨_, ?_, fun l u hl => .more hcall hl⟩
            exact h.argument_done false (fun hused => absurd hused Bool.false_ne_true)
              rfl rfl rfl rfl rfl

end

/-! ## The whole vector -/

section

variable {options : CString} {longOptions : List LongOption} {s : Getopt}
  {taken skipped rest : List CString} {arg : CString}

lemma Between.length_rest (h : Between s taken skipped rest) : rest.length < s.argv.length + 1 := by
  obtain ⟨-, before, behind, rfl, hlayout, -⟩ := h
  rw [hlayout.argv]
  simp only [List.length_append]
  omega

/-- A bound that is large enough has no influence on the search. -/
lemma search_fuel (h : Between s taken skipped rest) {fuel fuel' : ℕ} (hfuel : rest.length < fuel)
    (hfuel' : rest.length < fuel') : s.search fuel = s.search fuel' := by
  obtain ⟨fuel, rfl⟩ := Nat.exists_eq_succ_of_ne_zero (Nat.ne_zero_of_lt hfuel)
  obtain ⟨fuel', rfl⟩ := Nat.exists_eq_succ_of_ne_zero (Nat.ne_zero_of_lt hfuel')
  induction rest generalizing s skipped fuel fuel' with
  | nil =>
    obtain ⟨-, before, behind, rfl, hlayout, -⟩ := h
    have hget := hlayout.get_rest 0
    rw [Getopt.search, Getopt.search, show s.argv[s.optind]? = none from hget]
  | cons arg rest ih =>
    by_cases harg : IsOperand arg
    · obtain ⟨t, hskip, -, hbetween⟩ := h.skip
      obtain ⟨-, before, behind, rfl, hlayout, -⟩ := h
      have hget := hlayout.get_rest 0
      have hlt := Nat.lt_of_succ_lt_succ hfuel
      have hlt' := Nat.lt_of_succ_lt_succ hfuel'
      obtain ⟨fuel, rfl⟩ := Nat.exists_eq_succ_of_ne_zero (Nat.ne_zero_of_lt hlt)
      obtain ⟨fuel', rfl⟩ := Nat.exists_eq_succ_of_ne_zero (Nat.ne_zero_of_lt hlt')
      rw [Getopt.search, Getopt.search.eq_2, show s.argv[s.optind]? = some arg from hget]
      split
      · rfl
      · rfl
      · rfl
      · rw [hskip]
        exact ih hbetween fuel hlt fuel' hlt'
    · obtain ⟨-, before, behind, rfl, hlayout, -⟩ := h
      have hget := hlayout.get_rest 0
      obtain ⟨c, place, rfl⟩ := not_isOperand.mp harg
      rw [Getopt.search, Getopt.search.eq_2,
        show s.argv[s.optind]? = some ('-' :: c :: place) from hget]
      split
      · rfl
      · rfl
      · rfl
      · next hne heq => exact absurd (Option.some.inj heq).symm (hne c place)

/-- The calls from two states return the same if the next one does. -/
lemma Returns.congr {t u : Getopt} {l : List FoundOption}
    (hcall : getoptLong options longOptions s = getoptLong options longOptions t)
    (h : Returns options longOptions t l u) : Returns options longOptions s l u := by
  cases h with
  | done hdone => exact .done (hcall.trans hdone)
  | more hmore hrest => exact .more (hcall.trans hmore) hrest

lemma getoptLong_between (h : Between s taken skipped rest) :
    getoptLong options longOptions s =
      ({ s with optarg := none }.search (s.argv.length + 1)).map
        (Getopt.result options longOptions) :=
  if_pos h.place

/-- The next call skips an argument that is no option. -/
lemma getoptLong_operand (harg : IsOperand arg) (h : Between s taken skipped (arg :: rest)) :
    ∃ t, getoptLong options longOptions s = getoptLong options longOptions t ∧
      Between t taken (skipped ++ [arg]) rest := by
  have hlength := h.length_rest
  obtain ⟨t, hsearch, hoptarg, hbetween⟩ :=
    search_operand s.argv.length harg (h.withOptarg none)
  have ht : { t with optarg := none } = t := by
    cases t
    cases hoptarg
    rfl
  refine ⟨t, ?_, hbetween⟩
  rw [getoptLong_between h, getoptLong_between hbetween, hsearch, ht,
    search_fuel hbetween (Nat.lt_of_succ_lt_succ hlength) hbetween.length_rest]

/-- The next call begins with an option. -/
lemma getoptLong_option {c : Char} {place : CString} (hdashes : c :: place ≠ ['-'])
    (h : Between s taken skipped (('-' :: c :: place) :: rest)) :
    ∃ t, getoptLong options longOptions s = getoptLong options longOptions t ∧
      t.place = c :: place ∧ Within t taken skipped (('-' :: c :: place) :: rest) := by
  obtain ⟨t, hsearch, hplace, hwithin⟩ :=
    search_option s.argv.length hdashes (h.withOptarg none) rfl
  refine ⟨t, ?_, hplace, hwithin⟩
  rw [getoptLong_between h, hsearch,
    getoptLong_within (by rw [hplace]; exact List.cons_ne_nil _ _) hwithin.optarg]
  rfl

/-! The cases of `scanArgs`. -/

lemma scanArgs_nil : scanArgs options longOptions [] = ⟨[], [], []⟩ := by rw [scanArgs]

lemma scanArgs_end (args : List CString) :
    scanArgs options longOptions (['-', '-'] :: args) = ⟨[], [['-', '-']], args⟩ := by rw [scanArgs]

lemma scanArgs_option {c : Char} {place : CString} (hdashes : c :: place ≠ ['-'])
    (args : List CString) :
    scanArgs options longOptions (('-' :: c :: place) :: args) =
      let found := optionsOf options longOptions (c :: place) args.head?
      let rest := scanArgs options longOptions (args.drop (usedArgs found.2))
      ⟨found.1 ++ rest.found,
        ('-' :: c :: place) :: (args.take (usedArgs found.2) ++ rest.taken), rest.skipped⟩ := by
  rw [scanArgs]
  exact fun hc hplace => hdashes (by rw [hc, hplace])

lemma scanArgs_operand (harg : IsOperand arg) (args : List CString) :
    scanArgs options longOptions (arg :: args) =
      let rest := scanArgs options longOptions args
      ⟨rest.found, rest.taken, arg :: rest.skipped⟩ := by
  rw [scanArgs]
  · exact fun heq => harg _ _ heq
  · exact harg

/-- From any state between two options, the calls return the options of the rest of the vector. -/
lemma returns_scanArgs (h : Between s taken skipped rest) :
    let scanned := scanArgs options longOptions rest
    ∃ t, Returns options longOptions s scanned.found t ∧
      t.argv = taken ++ (scanned.taken ++ (skipped ++ scanned.skipped)) ∧
      t.optind = taken.length + scanned.taken.length := by
  induction hn : rest.length using Nat.strongRecOn generalizing s taken skipped rest with
  | ind n ih =>
    subst hn
    cases rest with
    | nil =>
      obtain ⟨t, hsearch, hargv, hoptind⟩ :=
        search_nil s.argv.length (h.withOptarg none)
      rw [scanArgs_nil]
      refine ⟨t, .done ?_, ?_, hoptind⟩
      · rw [getoptLong_between h, hsearch]
        rfl
      · simp [hargv]
    | cons arg args =>
      by_cases harg : IsOperand arg
      · obtain ⟨t, hcall, hbetween⟩ := getoptLong_operand harg h
        obtain ⟨u, hreturns, hargv, hoptind⟩ := ih args.length (Nat.lt_succ_self _) hbetween rfl
        rw [scanArgs_operand harg]
        refine ⟨u, .congr hcall hreturns, ?_, hoptind⟩
        simpa using hargv
      · obtain ⟨c, place, rfl⟩ := not_isOperand.mp harg
        by_cases hdashes : c :: place = ['-']
        · cases hdashes
          obtain ⟨t, hsearch, hargv, hoptind⟩ :=
            search_end s.argv.length (h.withOptarg none) rfl
          rw [scanArgs_end]
          refine ⟨t, .done ?_, ?_, hoptind⟩
          · rw [getoptLong_between h, hsearch]
            rfl
          · simpa using hargv
        · obtain ⟨t, hcall, hplace, hwithin⟩ := getoptLong_option hdashes h
          obtain ⟨u, hbetween, hgo⟩ :=
            returns_optionsOf (List.cons_ne_nil c place) hplace hwithin
          rw [scanArgs_option hdashes]
          generalize hfound : optionsOf options longOptions (c :: place) args.head? = found
            at hbetween hgo ⊢
          obtain ⟨v, hreturns, hargv, hoptind⟩ := ih (args.drop (usedArgs found.2)).length
            (by rw [List.length_drop, List.length_cons]; omega) hbetween rfl
          refine ⟨v, .congr hcall (hgo _ _ hreturns), ?_, ?_⟩
          · simpa using hargv
          · simp only [hoptind, List.length_append, List.length_cons]
            omega

/-- Nothing is lost and nothing comes twice. -/
lemma perm_scanArgs (args : List CString) :
    ((scanArgs options longOptions args).taken ++
      (scanArgs options longOptions args).skipped).Perm args := by
  induction hn : args.length using Nat.strongRecOn generalizing args with
  | ind n ih =>
    subst hn
    cases args with
    | nil => simp [scanArgs_nil]
    | cons arg args =>
      by_cases harg : IsOperand arg
      · rw [scanArgs_operand harg]
        exact List.perm_middle.trans ((ih _ (Nat.lt_succ_self _) args rfl).cons arg)
      · obtain ⟨c, place, rfl⟩ := not_isOperand.mp harg
        by_cases hdashes : c :: place = ['-']
        · cases hdashes
          rw [scanArgs_end]
          exact List.Perm.refl _
        · rw [scanArgs_option hdashes]
          dsimp only
          generalize optionsOf options longOptions (c :: place) args.head? = found
          have hrest := ih (args.drop (usedArgs found.2)).length
            (by rw [List.length_drop, List.length_cons]; omega) _ rfl
          have htake := (List.Perm.refl (args.take (usedArgs found.2))).append hrest
          rw [List.take_append_drop] at htake
          simpa using htake.cons ('-' :: c :: place)

end

lemma between_start (program : CString) (args : List CString) :
    Between (.start (program :: args)) [program] [] args :=
  ⟨rfl, [program], [], rfl, ⟨rfl, rfl, rfl, .inl ⟨rfl, rfl⟩⟩, fun h => absurd rfl h⟩

/-- The calls of `getopt_long` return the options of the command line from left to right.  In the
end the options stand at the beginning of the vector and the other arguments behind them, each in
their order, and `optind` is the place of the first of those. -/
theorem getopt_scan (options : CString) (longOptions : List LongOption) (program : CString)
    (args : List CString) :
    let scanned := scanArgs options longOptions args
    ∃ t, Returns options longOptions (.start (program :: args)) scanned.found t ∧
      t.argv = program :: (scanned.taken ++ scanned.skipped) ∧
      t.optind = 1 + scanned.taken.length ∧ t.argv.Perm (program :: args) := by
  obtain ⟨t, hreturns, hargv, hoptind⟩ := @returns_scanArgs options longOptions _ _ _ _
    (between_start program args)
  refine ⟨t, hreturns, hargv, hoptind, ?_⟩
  rw [hargv]
  exact (perm_scanArgs args).cons program

end SerialChrono
