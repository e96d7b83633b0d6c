import SerialChrono.Library.Assignment
import SerialChrono.StartUp.ConfigFile

/-!
# A configuration can be written to a file (`sc_config.c`, `ini.c`)

`Options.document` writes each option under its section and name, the numbers in decimal.
`parseIniFile_document` says that `parse_ini_file` restores the options from it.  What a file can
hold is `Options.Storable`: the numbers within the ranges the handler reduces them to, and texts
that fit on a line, without blanks at their ends and without anything that would be a remark.
-/

namespace SerialChrono

open CText Assignment

/-! ## What can be written -/

/-- A text that the parser finds again behind `=`. -/
structure ValueText (name value : CString) : Prop where
  oneLine : OneLine value
  trimmed : Trimmed value
  noRemark : NoRemark value
  fits : name.length + value.length ≤ 197

/-- What the file says about an option. -/
def OptionKey.print (o : Options) : OptionKey → Option CString
  | logfile => some o.logfile
  | loglevel => some (printInt o.loglevel)
  | opmode => some (printInt o.opmode.toInt)
  | verbose => some (printInt o.verbose)
  | licenseFile => some o.licenseFile
  | localPort => some (printInt o.localPort)
  -- `opmode` has the bit already
  | console => none
  | ring => some (printInt o.ring)
  | ajaxServer => some o.ajaxServer
  | clientName => some o.clientName
  | moduleName => some o.moduleName
  | commIpaddr => some o.commIpaddr
  | commPort => o.commPort
  | baudRate => some (printInt o.baudRate)
  | qrcommPort => some o.qrcommPort
  | webPort => some (printInt o.webPort)
  | fireBrowser => some (printInt o.fireBrowser)

/-- The options a file can hold. -/
structure Options.Storable (o : Options) : Prop where
  loglevel : -9 < o.loglevel ∧ o.loglevel < 9
  opmode : -31 < o.opmode.toInt ∧ o.opmode.toInt < 31
  verbose : o.verbose = 0 ∨ o.verbose = 1
  fireBrowser : o.fireBrowser = 0 ∨ o.fireBrowser = 1
  localPort : IsInt o.localPort
  ring : IsInt o.ring
  baudRate : IsInt o.baudRate
  webPort : IsInt o.webPort
  texts : ∀ k : OptionKey, ∀ value ∈ k.print o, ValueText k.name value

/-! ## The document -/

/-- A name and a value, written without blanks. -/
def OptionKey.pair (k : OptionKey) (value : CString) (h : ValueText k.name value) : IniPair where
  name := k.name
  value
  before := []
  separator := '='
  after := []
  gap := []
  remark := none
  name_ne_nil := by cases k <;> decide
  name_oneLine := by cases k <;> decide
  name_trimmed := by cases k <;> decide
  name_first c hc := by cases k <;> cases hc <;> decide
  name_noSeparator := fun c hc => by
    have hall : k.name.all fun c => c ≠ '=' ∧ c ≠ ':' := by cases k <;> rfl
    simpa using List.all_eq_true.mp hall c hc
  name_noRemark := by cases k <;> exact noRemark_of_notMem (by decide)
  name_noMark := by cases k <;> decide
  value_oneLine := h.oneLine
  value_trimmed := h.trimmed
  value_noRemark := h.noRemark
  before_blanks := by simp [Blanks]
  isSeparator := .inl rfl
  after_blanks := by simp [Blanks]
  after_eq_nil := fun _ => rfl
  gap_blanks := by simp [Blanks]
  gap_ne_nil := fun h => absurd rfl h
  remark_oneLine := by simp

/-- A section the handler knows, with its options. -/
structure OptionSection where
  name : CString
  keys : List OptionKey
  name_oneLine : OneLine name := by decide
  name_closed : ']' ∉ name := by decide
  name_plain : ';' ∉ name := by decide
  name_fits : name.length ≤ 49 := by decide
  keys_inside : ∀ k ∈ keys, k.sectionName = name := by decide

def OptionSection.head (s : OptionSection) : IniHead where
  name := s.name
  rest := []
  name_oneLine := s.name_oneLine
  name_closed := s.name_closed
  name_noRemark := noRemark_of_notMem s.name_plain
  rest_oneLine := by decide

def optionSections : List OptionSection :=
  [{ name := "Debug".toList, keys := [.logfile, .loglevel, .opmode, .verbose] },
    { name := "Global".toList, keys := [.licenseFile, .localPort, .ring] },
    { name := "Server".toList, keys := [.ajaxServer, .clientName] },
    { name := "Serial".toList, keys := [.moduleName, .commIpaddr, .commPort, .baudRate, .qrcommPort] },
    { name := "Web".toList, keys := [.webPort, .fireBrowser] }]

section

variable {o : Options} (ho : o.Storable)

/-- The line of an option, if there is anything to say. -/
def optionItem (k : OptionKey) : Option IniItem :=
  match h : k.print o with
  | some value => some (.pair (k.pair value (ho.texts k value h)))
  | none => none

lemma optionItem_none {k : OptionKey} (h : k.print o = none) : optionItem ho k = none := by
  unfold optionItem
  split
  · next h' => cases h.symm.trans h'
  · rfl

lemma optionItem_some {k : OptionKey} {value : CString} (h : k.print o = some value) :
    optionItem ho k = some (.pair (k.pair value (ho.texts k value h))) := by
  unfold optionItem
  split
  · next h' =>
    cases h.symm.trans h'
    rfl
  · next h' => cases h.symm.trans h'

def sectionItems (s : OptionSection) : List IniItem :=
  .head s.head :: s.keys.filterMap (optionItem ho)

def optionItems : List IniItem := optionSections.flatMap (sectionItems ho)

lemma not_more_mem_optionItems (m : IniMore) : IniItem.more m ∉ optionItems ho := by
  intro hmem
  obtain ⟨s, -, hmem⟩ := List.mem_flatMap.mp hmem
  rcases List.mem_cons.mp hmem with hhead | hmem
  · cases hhead
  · obtain ⟨k, -, hk⟩ := List.mem_filterMap.mp hmem
    unfold optionItem at hk
    split at hk <;> cases hk

lemma length_of_mem_optionItems {item : IniItem} (hitem : item ∈ optionItems ho) :
    item.text.length ≤ 198 := by
  obtain ⟨s, -, hmem⟩ := List.mem_flatMap.mp hitem
  rcases List.mem_cons.mp hmem with rfl | hmem
  · have hfits := s.name_fits
    simp only [IniItem.text, OptionSection.head, List.length_cons, List.length_append,
      List.length_nil]
    omega
  · obtain ⟨k, -, hk⟩ := List.mem_filterMap.mp hmem
    unfold optionItem at hk
    split at hk
    · next value hvalue =>
      cases hk
      have hfits := (ho.texts k value hvalue).fits
      simp only [IniItem.text, OptionKey.pair, remarkText, Option.map_none, Option.getD_none,
        List.length_append, List.length_cons, List.length_nil]
      omega
    · cases hk

lemma continued_of_no_more {items : List IniItem} (h : ∀ m, .more m ∉ items) (open_ : Bool) :
    Continued open_ items := by
  induction items generalizing open_ with
  | nil => trivial
  | cons item items ih =>
    exact ⟨fun m hm => absurd (hm ▸ List.mem_cons_self) (h m),
      ih (fun m hm => h m (List.mem_cons_of_mem _ hm)) _⟩

/-- The file that says what the options are. -/
def Options.document : IniDocument where
  mark := false
  items := optionItems ho
  continued := continued_of_no_more (not_more_mem_optionItems ho) false
  fits := by
    rw [markFirst]
    · rintro _ hline
      obtain ⟨item, hitem, rfl⟩ := List.mem_map.mp hline
      exact length_of_mem_optionItems ho hitem
    · exact fun _ _ h _ => absurd h Bool.false_ne_true

/-! ## Reading it -/

/-- What the file says, in its order. -/
def writtenValues (o : Options) (keys : List OptionKey) : List (OptionKey × CString) :=
  keys.filterMap fun k => (k.print o).map fun value => (k, value)

/-- The assignments of the handler. -/
abbrev assignOptions (b : Options) (l : List (OptionKey × CString)) : Options :=
  assign (fun k value b => k.store value b) b l

lemma findOption_name (k : OptionKey) : findOption k.sectionName k.name = some k := by
  cases k <;> rfl

lemma configHandler_store (k : OptionKey) (value : CString) (b : Options) :
    configHandler b k.sectionName k.name value = (k.store value b, true) := by
  rw [configHandler, findOption_name]

/-- The options of a section. -/
lemma foldl_keys (s : OptionSection) (rest : List IniItem) {keys : List OptionKey}
    (hkeys : ∀ k ∈ keys, k ∈ s.keys) (prevName : CString) (n : ℕ) (b : Options) :
    ∃ prevName' n',
      (itemEvents s.name prevName n (keys.filterMap (optionItem ho) ++ rest)).foldl
          (fun b e => e.2.apply configHandler b) b =
        (itemEvents s.name prevName' n' rest).foldl (fun b e => e.2.apply configHandler b)
          (assignOptions b (writtenValues o keys)) := by
  induction keys generalizing prevName n b with
  | nil => exact ⟨prevName, n, rfl⟩
  | cons k keys ih =>
    have hrest : ∀ k ∈ keys, k ∈ s.keys := fun k hk => hkeys k (List.mem_cons_of_mem _ hk)
    have hsection : s.name = k.sectionName := (s.keys_inside k (hkeys k List.mem_cons_self)).symm
    unfold writtenValues
    rw [List.filterMap_cons, List.filterMap_cons]
    cases hk : k.print o with
    | none =>
      rw [optionItem_none ho hk]
      exact ih hrest prevName n b
    | some value =>
      rw [optionItem_some ho hk]
      have hstore : IniEvent.apply configHandler b (.call s.name k.name value) = k.store value b := by
        rw [hsection]
        exact congrArg Prod.fst (configHandler_store k value b)
      obtain ⟨prevName', n', hih⟩ := ih hrest (iniRoom k.name) (n + 1) (k.store value b)
      refine ⟨prevName', n', Eq.trans ?_ hih⟩
      exact congrArg (fun b => (itemEvents s.name (iniRoom k.name) (n + 1) _).foldl _ b) hstore

/-- All the options. -/
lemma foldl_sections (sections : List OptionSection) (sectionName prevName : CString) (n : ℕ)
    (b : Options) :
    (itemEvents sectionName prevName n (sections.flatMap (sectionItems ho))).foldl
        (fun b e => e.2.apply configHandler b) b =
      assignOptions b (sections.flatMap fun s => writtenValues o s.keys) := by
  induction sections generalizing sectionName prevName n b with
  | nil => rfl
  | cons s sections ih =>
    obtain ⟨prevName', n', hkeys⟩ := foldl_keys ho s (sections.flatMap (sectionItems ho))
      (fun _ hk => hk) [] (n + 1) b
    have hname : iniRoom s.name = s.name := List.take_of_length_le s.name_fits
    rw [List.flatMap_cons, List.flatMap_cons, assignOptions, assign, List.foldl_append]
    exact (congrArg (fun name => (itemEvents name [] (n + 1) _).foldl _ b) hname).trans
      (hkeys.trans (ih _ _ _ _))

end

/-! ## The values -/

lemma atoi_printInt_of_isInt {x : ℤ} (hx : IsInt x) : atoi (printInt x) = x :=
  atoi_printInt hx.1 hx.2

/-- A number that is small enough survives the reduction. -/
lemma tmod_eq_self {x m : ℤ} (hlo : -m < x) (hhi : x < m) : x.tmod m = x := by
  rcases le_or_gt 0 x with h | h
  · exact Int.tmod_eq_of_lt h hhi
  · have hneg := Int.tmod_eq_of_lt (a := -x) (b := m) (by omega) (by omega)
    rw [Int.neg_tmod] at hneg
    omega

lemma flag_printInt {x : ℤ} (hx : x = 0 ∨ x = 1) : OptionKey.flag (printInt x) = x := by
  rcases hx with rfl | rfl <;> decide

/-- The options are what has been written. -/
lemma assign_written {o b : Options} (ho : o.Storable) (hstatus : o.status = b.status)
    (hbright : o.bright = b.bright) (hport : o.commPort = none → b.commPort = none) :
    assignOptions b (optionSections.flatMap fun s => writtenValues o s.keys) = o := by
  obtain ⟨⟨ajaxServer, clientName, ring, bright, status⟩, logfile, loglevel, verbose, opmode,
    licenseFile, localPort, moduleName, commIpaddr, commPort, baudRate, qrcommPort, webPort,
    fireBrowser⟩ := o
  have hloglevel : (atoi (printInt loglevel)).tmod 9 = loglevel := by
    have hrange := ho.loglevel
    dsimp only at hrange
    rw [atoi_printInt_of_isInt (by unfold IsInt; omega), tmod_eq_self hrange.1 hrange.2]
  have hopmode : BitVec.ofInt 32 ((atoi (printInt opmode.toInt)).tmod 0x1F) = opmode := by
    have hrange := ho.opmode
    dsimp only at hrange
    rw [atoi_printInt_of_isInt (by unfold IsInt; omega), tmod_eq_self hrange.1 hrange.2,
      BitVec.ofInt_toInt]
  have hvalues := (⟨atoi_printInt_of_isInt ho.ring, atoi_printInt_of_isInt ho.localPort,
    atoi_printInt_of_isInt ho.baudRate, atoi_printInt_of_isInt ho.webPort⟩ : _ ∧ _ ∧ _ ∧ _)
  have hflags := (⟨flag_printInt ho.verbose, flag_printInt ho.fireBrowser⟩ : _ ∧ _)
  dsimp only at hstatus hbright hport hvalues hflags
  cases commPort <;>
    simp only [optionSections, writtenValues, List.flatMap_cons, List.flatMap_nil,
      List.filterMap_cons, List.filterMap_nil, OptionKey.print, Option.map_some, Option.map_none,
      List.append_nil, List.cons_append, List.nil_append, assignOptions, assign, List.foldl_cons,
      List.foldl_nil, OptionKey.store, hloglevel, hopmode, hvalues, hflags, hstatus, hbright,
      hport]

/-- The options are restored from the file that says what they are. -/
theorem parseIniFile_document {o b : Options} (ho : o.Storable) (hstatus : o.status = b.status)
    (hbright : o.bright = b.bright) (hport : o.commPort = none → b.commPort = none) :
    parseIniFile b (some (Options.document ho).text) = some o := by
  have hreplay : (replay configHandler b (Options.document ho).events).2 = o := by
    unfold replay IniDocument.events Options.document
    dsimp only
    unfold optionItems
    rw [foldl_sections]
    exact assign_written ho hstatus hbright hport
  rw [parseIniFile_of_reads (Options.document ho).reads_text, (Options.document ho).events_lines,
    hreplay]

/-- The defaults, with a port. -/
def portOptions : Options := { Options.default with commPort := some "COM1".toList }

lemma portOptions_storable : portOptions.Storable where
  loglevel := by decide
  opmode := by decide
  verbose := by decide
  fireBrowser := by decide
  localPort := by decide
  ring := by decide
  baudRate := by decide
  webPort := by decide
  texts k value hvalue := by
    cases k <;> cases hvalue <;>
      exact ⟨by decide +kernel, by decide +kernel, noRemark_of_notMem (by decide +kernel),
        by decide +kernel⟩

theorem parseIniFile_document_portOptions :
    parseIniFile .default (some (Options.document portOptions_storable).text) =
      some portOptions :=
  parseIniFile_document portOptions_storable (by decide) (by decide) (by decide)

end SerialChrono
