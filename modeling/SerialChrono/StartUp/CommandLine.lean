import SerialChrono.Library.Assignment
import SerialChrono.StartUp.ConfigFile
import SerialChrono.StartUp.Scan

/-!
# The options of the program (`main.c`)

`parse_cmdline` takes the options that `getopt_long` returns one by one and stores them in the
configuration, over what `default_options` and the file have left there.  An option that is not
known, or whose argument is missing, shows the usage and ends the program, as `-h` does.

An option is a setting (`settingOf`), of the same kind as those of the file.  `parseCmdline_eq`
gives the whole loop from the arguments as they are read from left to right: it is the settings one
after the other, the branch that returns -1 is never taken and no missing argument is read.
-/

namespace SerialChrono

open CText Assignment

/-! ## The loop -/

/-- The string of the letters. -/
def cmdlineLetters : CString := "i:m:n:d:Q:w:s:L:l:D:b:r:vqhcf".toList

/-- `long_options` -/
def cmdlineLongOptions : List LongOption :=
  [⟨"module".toList, .requiredArgument, 'm'⟩,
    ⟨"ipaddr".toList, .requiredArgument, 'i'⟩,
    ⟨"commport".toList, .requiredArgument, 'd'⟩,
    ⟨"qrport".toList, .requiredArgument, 'Q'⟩,
    ⟨"baudrate".toList, .requiredArgument, 'b'⟩,
    ⟨"webport".toList, .requiredArgument, 'w'⟩,
    ⟨"ac_server".toList, .requiredArgument, 's'⟩,
    ⟨"ac_name".toList, .requiredArgument, 'n'⟩,
    ⟨"ring".toList, .requiredArgument, 'r'⟩,
    ⟨"loglevel".toList, .requiredArgument, 'D'⟩,
    ⟨"logfile".toList, .requiredArgument, 'L'⟩,
    ⟨"verbose".toList, .noArgument, 'v'⟩,
    ⟨"quiet".toList, .noArgument, 'q'⟩,
    ⟨"find_ports".toList, .noArgument, 'f'⟩,
    ⟨"license_file".toList, .requiredArgument, 'l'⟩,
    ⟨"help".toList, .noArgument, 'h'⟩]

/-- What comes of the command line, or of a part of it. -/
inductive Cmdline
  | options (o : Options)
  /-- The usage has been shown, and the program ends. -/
  | usage
  /-- -1 has been returned. -/
  | error
  deriving DecidableEq

/-- The option a letter with an argument sets. -/
def letterKey : Char → Option OptionKey
  | 'm' => some .moduleName
  | 'i' => some .commIpaddr
  | 'd' => some .commPort
  | 'Q' => some .qrcommPort
  | 'b' => some .baudRate
  | 'w' => some .webPort
  | 's' => some .ajaxServer
  | 'n' => some .clientName
  | 'r' => some .ring
  | 'D' => some .loglevel
  | 'L' => some .logfile
  | 'l' => some .licenseFile
  | _ => none

/-- The `switch` on an option.  An option whose argument is used must have one. -/
def applyOption (o : Options) (option : Char) (optarg : Option CString) : Option Cmdline :=
  match letterKey option with
  | some k => optarg.map fun value => .options (k.store value o)
  | none =>
    match option with
    | 'v' => some (.options { o with verbose := 1 })
    | 'q' => some (.options { o with verbose := 0 })
    | 'c' => some (.options { o with opmode := o.opmode ||| opmodeConsole })
    | 'f' => some (.options { o with opmode := opmodeFind })
    | 'h' | '?' => some .usage
    | _ => some .error

/-- The loop of `parse_cmdline`. -/
def cmdlineLoop : (fuel : ℕ) → Options → Getopt → Option Cmdline
  | 0, _, _ => none
  | fuel + 1, o, s => do
    match ← getoptLong cmdlineLetters cmdlineLongOptions s with
    | (none, _) => return .options o
    | (some option, s) =>
      match ← applyOption o option s.optarg with
      | .options o => cmdlineLoop fuel o s
      | ended => return ended

/-- `parse_cmdline`: there are no more options than characters. -/
def parseCmdline (o : Options) (argv : List CString) : Option Cmdline :=
  cmdlineLoop (argv.flatten.length + 1) o (.start argv)

/-- The options the program starts with: the defaults, the file, if it can be opened, and the command
line. -/
def startOptions (file : Option (List Char)) (argv : List CString) : Option Cmdline := do
  parseCmdline (← parseIniFile .default file) argv

/-! ## What the options are -/

/-- The options that are found, one after the other. -/
def applyFound : Options → List FoundOption → Option Cmdline
  | o, [] => some (.options o)
  | o, (option, optarg) :: found => do
    match ← applyOption o option optarg with
    | .options o => applyFound o found
    | ended => return ended

/-- The loop takes the options as they are returned. -/
lemma cmdlineLoop_of_returns {s t : Getopt} {found : List FoundOption}
    (h : Returns cmdlineLetters cmdlineLongOptions s found t) {fuel : ℕ}
    (hfuel : found.length < fuel) (o : Options) : cmdlineLoop fuel o s = applyFound o found := by
  induction h generalizing fuel o with
  | done hnone =>
    obtain ⟨fuel, rfl⟩ := Nat.exists_eq_succ_of_ne_zero (Nat.ne_zero_of_lt hfuel)
    rw [cmdlineLoop, hnone]
    rfl
  | @more s t u option found hsome _ ih =>
    obtain ⟨fuel, rfl⟩ := Nat.exists_eq_succ_of_ne_zero (Nat.ne_zero_of_lt hfuel)
    rw [cmdlineLoop, hsome, applyFound]
    cases happly : applyOption o option t.optarg with
    | none => simp [happly]
    | some result =>
      cases result with
      | options o' => simpa [happly] using ih (Nat.lt_of_succ_lt_succ hfuel) o'
      | usage => simp [happly]
      | error => simp [happly]

/-! ## The options that can be found -/

/-- An option the `switch` has a case for, with its argument if it has one. -/
def KnownOption (found : FoundOption) : Prop :=
  (letterKey found.1).isSome ∧ found.2.isSome ∨ found.1 ∈ ['v', 'q', 'c', 'f', 'h', '?']

lemma argKind_letters (c : Char) :
    argKind cmdlineLetters c = none ∨
      argKind cmdlineLetters c = some .noArgument ∧ c ∈ ['v', 'q', 'h', 'c', 'f'] ∨
      argKind cmdlineLetters c = some .requiredArgument ∧ (letterKey c).isSome := by
  by_cases hc : c ∈ cmdlineLetters
  · have hall : cmdlineLetters.all (fun c => argKind cmdlineLetters c = none ∨
        argKind cmdlineLetters c = some .noArgument ∧ c ∈ ['v', 'q', 'h', 'c', 'f'] ∨
        argKind cmdlineLetters c = some .requiredArgument ∧ (letterKey c).isSome) = true := by
      decide
    exact of_decide_eq_true (List.all_eq_true.mp hall c hc)
  · left
    have hnone : cmdlineLetters.dropWhile (· ≠ c) = [] :=
      List.dropWhile_eq_nil_iff.mpr fun d hd => decide_eq_true fun hdc => hc (hdc ▸ hd)
    unfold argKind
    rw [hnone]
    split_ifs <;> rfl

lemma matchLongLoop_mem {name : CString} {longOptions all : List LongOption}
    (hsub : ∀ o ∈ longOptions, o ∈ all) {found : Option LongOption} (hfound : ∀ o ∈ found, o ∈ all)
    {ambiguous : Bool} : ∀ o ∈ (matchLongLoop name longOptions found ambiguous).1, o ∈ all := by
  induction longOptions generalizing found ambiguous with
  | nil => exact hfound
  | cons p longOptions ih =>
    have hrest : ∀ o ∈ longOptions, o ∈ all := fun o ho => hsub o (List.mem_cons_of_mem _ ho)
    have hp : ∀ o ∈ some p, o ∈ all := by
      rintro o ho
      cases ho
      exact hsub p List.mem_cons_self
    unfold matchLongLoop
    split_ifs
    · exact ih hrest hfound
    · exact hp
    · cases found with
      | none => exact ih hrest hp
      | some q => exact ih hrest hfound

lemma findLong_mem {longOptions : List LongOption} {name : CString} {o : LongOption}
    (h : findLong longOptions name = some o) : o ∈ longOptions := by
  have hmem : ∀ o ∈ (matchLongLoop name longOptions none false).1, o ∈ longOptions :=
    matchLongLoop_mem (fun _ ho => ho) (by simp)
  unfold findLong at h
  generalize matchLongLoop name longOptions none false = result at h hmem
  rcases result with ⟨found, ambiguous⟩
  cases ambiguous with
  | true => cases h
  | false => exact hmem o h

lemma knownOption_badch (optarg : Option CString) : KnownOption (badch, optarg) :=
  .inr (show badch ∈ ['v', 'q', 'c', 'f', 'h', '?'] by decide)

/-- The long options are other names of letters. -/
lemma cmdlineLongOptions_val {o : LongOption} (ho : o ∈ cmdlineLongOptions) :
    o.hasArg = .requiredArgument ∧ (letterKey o.val).isSome ∨
      o.hasArg = .noArgument ∧ o.val ∈ ['v', 'q', 'c', 'f', 'h', '?'] := by
  have hall : cmdlineLongOptions.all (fun o =>
      o.hasArg = .requiredArgument ∧ (letterKey o.val).isSome ∨
        o.hasArg = .noArgument ∧ o.val ∈ ['v', 'q', 'c', 'f', 'h', '?']) = true := by
    decide
  exact of_decide_eq_true (List.all_eq_true.mp hall o ho)

lemma known_longOf (current : CString) (next : Option CString) :
    KnownOption (longOf cmdlineLongOptions current next).1 := by
  unfold longOf
  obtain ⟨name, hasEqual⟩ := splitLong current
  dsimp only
  cases hfind : findLong cmdlineLongOptions name with
  | none => exact knownOption_badch none
  | some o =>
    rcases cmdlineLongOptions_val (findLong_mem hfind) with ⟨hkind, hval⟩ | ⟨hkind, hval⟩
    · cases hasEqual with
      | some value =>
        simp only [hkind]
        exact .inl ⟨hval, rfl⟩
      | none =>
        cases next with
        | some value =>
          simp only [hkind]
          exact .inl ⟨hval, rfl⟩
        | none =>
          simp only [hkind]
          exact knownOption_badch none
    · cases hasEqual with
      | some value =>
        simp only [hkind]
        exact knownOption_badch none
      | none =>
        simp only [hkind]
        exact .inr hval

lemma known_optionsOf (place : CString) (next : Option CString) :
    ∀ f ∈ (optionsOf cmdlineLetters cmdlineLongOptions place next).1, KnownOption f := by
  induction place with
  | nil => exact fun f hf => absurd hf List.not_mem_nil
  | cons c place ih =>
    unfold optionsOf
    by_cases hdash : c = '-'
    · rw [if_pos hdash]
      intro f hf
      rw [List.mem_singleton.mp hf]
      exact known_longOf place next
    · rw [if_neg hdash]
      rcases argKind_letters c with hkind | ⟨hkind, hc⟩ | ⟨hkind, hc⟩
      · simp only [hkind]
        exact List.forall_mem_cons.mpr ⟨knownOption_badch none, ih⟩
      · simp only [hkind]
        refine List.forall_mem_cons.mpr ⟨.inr ?_, ih⟩
        simp only [List.mem_cons, List.not_mem_nil, or_false] at hc ⊢
        tauto
      · simp only [hkind]
        split_ifs
        · exact List.forall_mem_singleton.mpr (.inl ⟨hc, rfl⟩)
        · cases next with
          | some value => exact List.forall_mem_singleton.mpr (.inl ⟨hc, rfl⟩)
          | none => exact List.forall_mem_singleton.mpr (knownOption_badch none)

lemma length_optionsOf (place : CString) (next : Option CString) :
    (optionsOf cmdlineLetters cmdlineLongOptions place next).1.length ≤ place.length := by
  induction place with
  | nil => rfl
  | cons c place ih =>
    unfold optionsOf
    by_cases hdash : c = '-'
    · rw [if_pos hdash]
      exact Nat.succ_le_succ (Nat.zero_le _)
    · rw [if_neg hdash]
      rcases argKind_letters c with hkind | ⟨hkind, -⟩ | ⟨hkind, -⟩
      · simp only [hkind]
        exact Nat.succ_le_succ ih
      · simp only [hkind]
        exact Nat.succ_le_succ ih
      · simp only [hkind]
        split_ifs
        · exact Nat.succ_le_succ (Nat.zero_le _)
        · cases next <;> exact Nat.succ_le_succ (Nat.zero_le _)

/-- The options of a command line have what the `switch` needs, and there are not more than
characters. -/
lemma known_scanArgs (args : List CString) :
    let found := (scanArgs cmdlineLetters cmdlineLongOptions args).found
    (∀ f ∈ found, KnownOption f) ∧ found.length ≤ args.flatten.length := by
  induction hn : args.length using Nat.strongRecOn generalizing args with
  | ind n ih =>
    subst hn
    cases args with
    | nil =>
      rw [scanArgs_nil]
      exact ⟨fun f hf => absurd hf List.not_mem_nil, le_rfl⟩
    | cons arg args =>
      by_cases harg : IsOperand arg
      · obtain ⟨hknown, hlength⟩ := ih _ (Nat.lt_succ_self _) args rfl
        rw [scanArgs_operand harg]
        refine ⟨hknown, hlength.trans ?_⟩
        rw [List.flatten_cons, List.length_append]
        exact Nat.le_add_left _ _
      · obtain ⟨c, place, rfl⟩ := not_isOperand.mp harg
        by_cases hdashes : c :: place = ['-']
        · cases hdashes
          rw [scanArgs_end]
          exact ⟨fun f hf => absurd hf List.not_mem_nil, Nat.zero_le _⟩
        · rw [scanArgs_option hdashes]
          have hfirst := known_optionsOf (c :: place) args.head?
          have hcount := length_optionsOf (c :: place) args.head?
          dsimp only
          generalize optionsOf cmdlineLetters cmdlineLongOptions (c :: place) args.head? = found
            at hfirst hcount
          obtain ⟨hknown, hlength⟩ := ih (args.drop (usedArgs found.2)).length
            (by rw [List.length_drop, List.length_cons]; omega) _ rfl
          have hdrop : (args.drop (usedArgs found.2)).flatten.length ≤ args.flatten.length := by
            rw [← List.take_append_drop (usedArgs found.2) args, List.flatten_append,
              List.length_append, List.take_append_drop]
            exact Nat.le_add_left _ _
          refine ⟨fun f hf => (List.mem_append.mp hf).elim (hfirst f) (hknown f), ?_⟩
          simp only [List.flatten_cons, List.length_append, List.length_cons] at hcount ⊢
          omega

/-! ## The settings -/

/-- What is set, and to which text: an option of the file, or the mode that lists the ports. -/
abbrev Setting := Option OptionKey × CString

def storeSetting (k : Option OptionKey) (value : CString) (o : Options) : Options :=
  match k with
  | some k => k.store value o
  | none => { o with opmode := opmodeFind }

/-- The options after some settings. -/
abbrev assignSettings (o : Options) (l : List Setting) : Options := assign storeSetting o l

/-- The setting an option of the command line makes. -/
def settingOf : FoundOption → Option Setting
  | (option, optarg) =>
    match letterKey option with
    | some k => optarg.map fun value => (some k, value)
    | none =>
      match option with
      | 'v' => some (some .verbose, "1".toList)
      | 'q' => some (some .verbose, "0".toList)
      | 'c' => some (some .console, "1".toList)
      | 'f' => some (none, [])
      | _ => none

/-- The options that end the program. -/
def asksUsage (f : FoundOption) : Bool := f.1 = 'h' ∨ f.1 = '?'

/-- The settings of a command line. -/
def lineSettings (args : List CString) : List Setting :=
  (scanArgs cmdlineLetters cmdlineLongOptions args).found.filterMap settingOf

lemma applyOption_known {f : FoundOption} (hf : KnownOption f) (o : Options) :
    applyOption o f.1 f.2 = some .usage ∧ asksUsage f = true ∨
      ∃ k value, settingOf f = some (k, value) ∧ asksUsage f = false ∧
        applyOption o f.1 f.2 = some (.options (storeSetting k value o)) := by
  obtain ⟨option, optarg⟩ := f
  rcases hf with ⟨hkey, harg⟩ | hletter
  · right
    obtain ⟨k, hk⟩ := Option.isSome_iff_exists.mp hkey
    obtain ⟨value, rfl⟩ := Option.isSome_iff_exists.mp harg
    dsimp only at hk
    refine ⟨some k, value, by simp [settingOf, hk], ?_, by simp [applyOption, hk, storeSetting]⟩
    simp only [asksUsage, decide_eq_false_iff_not]
    rintro (rfl | rfl) <;> cases hk
  · simp only [List.mem_cons, List.not_mem_nil, or_false] at hletter
    rcases hletter with rfl | rfl | rfl | rfl | rfl | rfl
    · exact .inr ⟨_, _, rfl, rfl, rfl⟩
    · exact .inr ⟨_, _, rfl, rfl, rfl⟩
    · exact .inr ⟨_, _, rfl, rfl, rfl⟩
    · exact .inr ⟨_, _, rfl, rfl, rfl⟩
    · exact .inl ⟨rfl, rfl⟩
    · exact .inl ⟨rfl, rfl⟩

/-- The options are set one after the other, until one asks for the usage. -/
lemma applyFound_known {found : List FoundOption} (hfound : ∀ f ∈ found, KnownOption f)
    (o : Options) :
    applyFound o found =
      some (if found.any asksUsage then .usage
        else .options (assignSettings o (found.filterMap settingOf))) := by
  induction found generalizing o with
  | nil => rfl
  | cons f found ih =>
    obtain ⟨hf, hrest⟩ := List.forall_mem_cons.mp hfound
    rcases applyOption_known hf o with ⟨happly, husage⟩ | ⟨k, value, hset, hno, happly⟩
    · rw [applyFound, happly, List.any_cons, husage]
      rfl
    · rw [applyFound, happly, List.any_cons, hno, List.filterMap_cons_some hset, assignSettings,
        assign, List.foldl_cons, Bool.false_or]
      exact ih hrest (storeSetting k value o)

/-- The whole of `parse_cmdline`: the usage is shown just if an option asks for it, is not known or
lacks its argument, and otherwise the settings are made as the line is read from left to right. -/
lemma parseCmdline_eq (o : Options) (program : CString) (args : List CString) :
    parseCmdline o (program :: args) =
      some (if (scanArgs cmdlineLetters cmdlineLongOptions args).found.any asksUsage then .usage
        else .options (assignSettings o (lineSettings args))) := by
  obtain ⟨t, hreturns, -⟩ := @returns_scanArgs cmdlineLetters cmdlineLongOptions _ _ _ _
    (between_start program args)
  obtain ⟨hknown, hlength⟩ := known_scanArgs args
  have hfuel : (scanArgs cmdlineLetters cmdlineLongOptions args).found.length <
      (program :: args).flatten.length + 1 := by
    rw [List.flatten_cons, List.length_append]
    omega
  rw [parseCmdline, cmdlineLoop_of_returns hreturns hfuel, applyFound_known hknown]
  rfl

end SerialChrono
