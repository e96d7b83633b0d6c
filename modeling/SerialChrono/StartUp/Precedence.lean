import Mathlib.Tactic.IntervalCases
import SerialChrono.StartUp.CommandLine

/-!
# What the program starts with (`main.c`, `sc_config.c`)

`startOptions` is the defaults, the values of `serial_chrono.ini` over them and the options of the
command line over these.  `startOptions_read` is the order of precedence for the fields that one
name sets: the last setting counts.  `opmode` is set under two names and by two options, so that it
has a theorem of its own, `startOptions_find`: the program lists the ports, and does nothing else,
if `-f` is given or if the file has a negative `opmode`, whose reduction by `% 0x1F` keeps the
sign and with it the bit of `OPMODE_FIND`.  `startOptions_inRange` is the invariant of all settings.
-/

namespace SerialChrono

open CText Assignment

/-! ## The settings of the file -/

/-- The setting of a call, if the handler accepts it. -/
def IniEvent.setting : IniEvent → Option Setting
  | .call sectionName name value => (findOption sectionName name).map fun k => (some k, value)
  | .malformed => none

/-- The settings of a file, if there is one. -/
def fileSettings : Option (List Char) → List Setting
  | none => []
  | some file => (iniEvents file).filterMap fun e => e.2.setting

lemma foldl_apply_configHandler (events : List (ℕ × IniEvent)) (o : Options) :
    events.foldl (fun o e => e.2.apply configHandler o) o =
      assignSettings o (events.filterMap fun e => e.2.setting) := by
  induction events generalizing o with
  | nil => rfl
  | cons e events ih =>
    obtain ⟨lineno, e⟩ := e
    rw [List.foldl_cons, ih, List.filterMap_cons]
    cases e with
    | malformed => rfl
    | call sectionName name value =>
      cases hfind : findOption sectionName name <;>
        simp [IniEvent.apply, IniEvent.setting, configHandler, hfind, assignSettings, assign,
          storeSetting]

/-- The file makes its settings. -/
lemma parseIniFile_eq (o : Options) (file : Option (List Char)) :
    parseIniFile o file = some (assignSettings o (fileSettings file)) := by
  cases file with
  | none => rfl
  | some file =>
    rw [parseIniFile_of_reads (reads_iniLines file).1, replay, foldl_apply_configHandler]
    rfl

/-- All the settings, in their order. -/
def startSettings (file : Option (List Char)) (args : List CString) : List Setting :=
  fileSettings file ++ lineSettings args

lemma startOptions_eq (file : Option (List Char)) (program : CString) (args : List CString) :
    startOptions file (program :: args) =
      some (if (scanArgs cmdlineLetters cmdlineLongOptions args).found.any asksUsage then .usage
        else .options (assignSettings .default (startSettings file args))) := by
  have hassign : assignSettings (assignSettings .default (fileSettings file)) (lineSettings args) =
      assignSettings .default (startSettings file args) := by
    simp only [assignSettings, assign, startSettings, List.foldl_append]
  rw [startOptions, parseIniFile_eq, Option.bind_eq_bind, Option.bind_some, parseCmdline_eq,
    hassign]

/-- Whatever the arguments, the program has its options or shows the usage.  It shows the usage just
if, read from left to right, they have an option that asks for it, is not known, or lacks its
argument or has one that it does not take. -/
theorem startOptions_usage (file : Option (List Char)) (program : CString) (args : List CString) :
    let found := (scanArgs cmdlineLetters cmdlineLongOptions args).found
    ((∃ o, startOptions file (program :: args) = some (.options o)) ∨
        startOptions file (program :: args) = some .usage) ∧
      (startOptions file (program :: args) = some .usage ↔ ∃ f ∈ found, f.1 = 'h' ∨ f.1 = badch) := by
  intro found
  have hasks : found.any asksUsage = true ↔ ∃ f ∈ found, f.1 = 'h' ∨ f.1 = badch := by
    simp [asksUsage, badch]
  rw [startOptions_eq, ← hasks]
  by_cases husage : found.any asksUsage = true
  · rw [if_pos husage]
    exact ⟨.inr rfl, iff_of_true rfl husage⟩
  · rw [if_neg husage]
    exact ⟨.inl ⟨_, rfl⟩, iff_of_false (fun h => by cases h) husage⟩

lemma options_of_startOptions {file : Option (List Char)} {program : CString}
    {args : List CString} {o : Options}
    (h : startOptions file (program :: args) = some (.options o)) :
    o = assignSettings .default (startSettings file args) := by
  rw [startOptions_eq] at h
  split_ifs at h
  · cases h
  · cases h
    rfl

/-! ## The last setting counts -/

/-- What an option can be. -/
inductive OptionValue
  | text (value : Option CString)
  | number (value : ℤ)
  deriving DecidableEq

namespace OptionKey

/-- The field of an option. -/
def read (o : Options) : OptionKey → OptionValue
  | logfile => .text o.logfile
  | loglevel => .number o.loglevel
  | opmode | console => .number o.opmode.toInt
  | verbose => .number o.verbose
  | licenseFile => .text o.licenseFile
  | localPort => .number o.localPort
  | ring => .number o.ring
  | ajaxServer => .text o.ajaxServer
  | clientName => .text o.clientName
  | moduleName => .text o.moduleName
  | commIpaddr => .text o.commIpaddr
  | commPort => .text o.commPort
  | baudRate => .number o.baudRate
  | qrcommPort => .text o.qrcommPort
  | webPort => .number o.webPort
  | fireBrowser => .number o.fireBrowser

/-- The value a text stands for. -/
def convert (k : OptionKey) (value : CString) : OptionValue := k.read (k.store value .default)

/-- A field that one name sets. -/
lemma isField {k : OptionKey} (hopmode : k ≠ .opmode) (hconsole : k ≠ .console) :
    IsField storeSetting (some k) (fun o => k.read o) k.convert where
  read_self value o := by cases k <;> first | rfl | contradiction
  read_of_ne k' value o hne := by
    cases k' with
    | none => cases k <;> first | rfl | contradiction
    | some k' => cases k <;> first | contradiction | (cases k' <;> first | rfl | contradiction)

end OptionKey

/-- Every option but the mode is what it has been set to last: the command line counts before the
file, and the file before the defaults. -/
theorem startOptions_read {file : Option (List Char)} {program : CString} {args : List CString}
    {o : Options} (h : startOptions file (program :: args) = some (.options o)) {k : OptionKey}
    (hopmode : k ≠ .opmode) (hconsole : k ≠ .console) :
    k.read o =
      ((valuesOf (some k) (fileSettings file ++ lineSettings args)).getLast?.map k.convert).getD
        (k.read .default) := by
  rw [options_of_startOptions h]
  exact (OptionKey.isField hopmode hconsole).read_assign _ _

/-- A file and a line that set the ring twice each. -/
theorem startOptions_read_ring :
    OptionKey.ring.read { Options.default with ring := 2, verbose := 1 } =
      ((valuesOf (some .ring) (fileSettings (some "[Global]\nring=3\nring=4\n".toList) ++
        lineSettings ["-r7".toList, "-v".toList, "--ring".toList, "2".toList])).getLast?.map
          OptionKey.ring.convert).getD (OptionKey.ring.read .default) :=
  @startOptions_read (some _) "serial_chrono".toList _ _ (by decide +kernel) _ (by decide)
    (by decide)

/-! ## The mode -/

/-- `opmode&OPMODE_FIND` -/
def Options.listsPorts (o : Options) : Bool := o.opmode &&& opmodeFind ≠ 0

lemma listsPorts_eq (o : Options) : o.listsPorts = o.opmode.getLsbD 5 := by
  have hbit : o.opmode &&& opmodeFind = if o.opmode.getLsbD 5 then opmodeFind else 0 := by
    ext i hi
    have hone : opmodeFind.getLsbD i = decide (i = 5) := by
      have hall : (List.range 32).all (fun i => opmodeFind.getLsbD i = decide (i = 5)) = true := by
        decide
      exact of_decide_eq_true (List.all_eq_true.mp hall i (List.mem_range.mpr hi))
    by_cases h5 : i = 5
    · subst h5
      cases hb : o.opmode.getLsbD 5 <;> simp_all
    · cases hb : o.opmode.getLsbD 5 <;> simp_all
  unfold Options.listsPorts
  rw [hbit]
  cases o.opmode.getLsbD 5 <;> decide

/-- A remainder keeps the sign, and a small negative number has the bit. -/
lemma getLsbD_ofInt_tmod (x : ℤ) :
    (BitVec.ofInt 32 (x.tmod 0x1F)).getLsbD 5 = decide (x.tmod 0x1F < 0) := by
  have hlo : -31 < x.tmod 31 := Int.lt_tmod_of_pos x (by decide)
  have hhi : x.tmod 31 < 31 := Int.tmod_lt_of_pos x (by decide)
  generalize x.tmod 31 = r at hlo hhi
  interval_cases r <;> rfl

/-- What a setting says about the mode. -/
def findEffect (s : Setting) : Option Bool :=
  match s.1 with
  | none => some true
  | some .opmode => some (decide ((atoi s.2).tmod 0x1F < 0))
  | some _ => none

lemma listsPorts_store (o : Options) (s : Setting) :
    (storeSetting s.1 s.2 o).listsPorts = (findEffect s).getD o.listsPorts := by
  obtain ⟨k, value⟩ := s
  rw [listsPorts_eq, listsPorts_eq]
  cases k with
  | none => exact (by decide : opmodeFind.getLsbD 5 = true)
  | some k =>
    cases k with
    | opmode => exact getLsbD_ofInt_tmod _
    | console =>
      simp only [storeSetting, OptionKey.store, findEffect, Option.getD_none, BitVec.getLsbD_or]
      split_ifs <;> simp [opmodeConsole]
    | _ => rfl

/-- In the file only `opmode` counts. -/
lemma findEffect_fileSettings (file : Option (List Char)) :
    (fileSettings file).filterMap findEffect =
      (valuesOf (some .opmode) (fileSettings file)).map fun value =>
        decide ((atoi value).tmod 0x1F < 0) := by
  rw [← filterMap_valuesOf]
  refine List.filterMap_congr fun s hs => ?_
  have hkey : ∃ k value, s = (some k, value) := by
    cases file with
    | none => cases hs
    | some file =>
      obtain ⟨⟨lineno, e⟩, -, he⟩ := List.mem_filterMap.mp hs
      cases e with
      | malformed => cases he
      | call sectionName name value =>
        obtain ⟨k, -, hk⟩ := Option.map_eq_some_iff.mp he
        exact ⟨k, value, hk.symm⟩
  obtain ⟨k, value, rfl⟩ := hkey
  cases k <;> rfl

/-- On the command line only `-f` counts. -/
lemma findEffect_settingOf (f : FoundOption) :
    (settingOf f).bind findEffect = if f.1 = 'f' then some true else none := by
  obtain ⟨option, optarg⟩ := f
  by_cases hf : option = 'f'
  · subst hf
    rfl
  · rw [if_neg hf]
    unfold settingOf
    cases hkey : letterKey option with
    | some k =>
      have hk : k ≠ .opmode := by
        rintro rfl
        unfold letterKey at hkey
        split at hkey <;> cases hkey
      simp only [hkey]
      cases optarg with
      | none => rfl
      | some value => cases k <;> first | rfl | contradiction
    | none =>
      simp only [hkey]
      split <;> first | rfl | contradiction

lemma findEffect_lineSettings (args : List CString) :
    (lineSettings args).filterMap findEffect =
      (scanArgs cmdlineLetters cmdlineLongOptions args).found.filterMap fun f =>
        if f.1 = 'f' then some true else none := by
  rw [lineSettings, List.filterMap_filterMap]
  exact List.filterMap_congr fun f _ => findEffect_settingOf f

/-- The program only lists the ports just if `-f` is among the options, or if the last `opmode` of
the file leaves a negative remainder. -/
theorem startOptions_find {file : Option (List Char)} {program : CString} {args : List CString}
    {o : Options} (h : startOptions file (program :: args) = some (.options o)) :
    o.listsPorts = true ↔
      (∃ f ∈ (scanArgs cmdlineLetters cmdlineLongOptions args).found, f.1 = 'f') ∨
        ∃ value, (valuesOf (some .opmode) (fileSettings file)).getLast? = some value ∧
          (atoi value).tmod 0x1F < 0 := by
  have hbit : o.listsPorts =
      ((startSettings file args).filterMap findEffect).getLast?.getD false := by
    rw [options_of_startOptions h]
    exact read_foldl listsPorts_store _ _
  rw [hbit, startSettings, List.filterMap_append, findEffect_fileSettings, findEffect_lineSettings]
  generalize (scanArgs cmdlineLetters cmdlineLongOptions args).found = found
  generalize valuesOf (some .opmode) (fileSettings file) = values
  by_cases hline : ∃ f ∈ found, f.1 = 'f'
  · obtain ⟨f, hmem, hf⟩ := hline
    have htrue : true ∈ found.filterMap fun f => if f.1 = 'f' then some true else none :=
      List.mem_filterMap.mpr ⟨f, hmem, if_pos hf⟩
    have hall : ∀ b ∈ found.filterMap fun f => if f.1 = 'f' then some true else none,
        b = true := by
      intro b hb
      obtain ⟨g, -, hg⟩ := List.mem_filterMap.mp hb
      split_ifs at hg
      · exact (Option.some.inj hg).symm
    have hne := List.ne_nil_of_mem htrue
    rw [List.getLast?_append_of_ne_nil _ hne, List.getLast?_eq_some_getLast hne, Option.getD_some,
      hall _ (List.getLast_mem hne)]
    exact iff_of_true rfl (.inl ⟨f, hmem, hf⟩)
  · have hnil : (found.filterMap fun f => if f.1 = 'f' then some true else none) = [] :=
      List.filterMap_eq_nil_iff.mpr fun f hf => if_neg fun h => hline ⟨f, hf, h⟩
    rw [hnil, List.append_nil, List.getLast?_map, or_iff_right hline]
    cases values.getLast? with
    | none => simp
    | some value => simp

theorem startOptions_find_negative :
    Options.listsPorts { Options.default with opmode := -1 } = true ↔
      (∃ f ∈ (scanArgs cmdlineLetters cmdlineLongOptions []).found, f.1 = 'f') ∨
        ∃ value, (valuesOf (some .opmode)
            (fileSettings (some "[Debug]\nopmode=-1\n".toList))).getLast? = some value ∧
          (atoi value).tmod 0x1F < 0 :=
  @startOptions_find (some _) "serial_chrono".toList [] _ (by decide +kernel)

/-! ## The ranges -/

/-- The ranges the settings are reduced to. -/
structure Options.InRange (o : Options) : Prop where
  loglevel : -9 < o.loglevel ∧ o.loglevel < 9
  verbose : o.verbose = 0 ∨ o.verbose = 1
  fireBrowser : o.fireBrowser = 0 ∨ o.fireBrowser = 1
  localPort : IsInt o.localPort
  ring : IsInt o.ring
  baudRate : IsInt o.baudRate
  webPort : IsInt o.webPort

lemma OptionKey.flag_eq (value : CString) : flag value = 0 ∨ flag value = 1 := by
  unfold flag
  split_ifs <;> simp

/-- Each setting keeps the ranges. -/
lemma Options.InRange.store {o : Options} (ho : o.InRange) (k : Option OptionKey)
    (value : CString) : (storeSetting k value o).InRange := by
  obtain ⟨hlog, hverbose, hfire, hlocal, hring, hbaud, hweb⟩ := ho
  have hint : IsInt (atoi value) := atoi_bounds value
  have hlevel : -9 < (atoi value).tmod 9 ∧ (atoi value).tmod 9 < 9 :=
    ⟨Int.lt_tmod_of_pos _ (by decide), Int.tmod_lt_of_pos _ (by decide)⟩
  have hflag := OptionKey.flag_eq value
  cases k with
  | none => exact ⟨hlog, hverbose, hfire, hlocal, hring, hbaud, hweb⟩
  | some k => cases k <;> constructor <;> assumption

/-- Whatever the file and the command line say, the numbers are in their ranges. -/
theorem startOptions_inRange {file : Option (List Char)} {program : CString} {args : List CString}
    {o : Options} (h : startOptions file (program :: args) = some (.options o)) : o.InRange := by
  rw [options_of_startOptions h]
  refine List.foldlRecOn (motive := Options.InRange) _ _ (by constructor <;> decide) ?_
  exact fun o ho s _ => ho.store s.1 s.2

theorem startOptions_inRange_loglevel :
    Options.InRange { Options.default with loglevel := -4, opmode := 2 } :=
  @startOptions_inRange (some "[Debug]\nloglevel=-13\n[Global]\nconsole = 1".toList)
    "serial_chrono".toList [] _ (by decide +kernel)

end SerialChrono
