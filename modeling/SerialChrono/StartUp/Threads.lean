import SerialChrono.Events.Own
import SerialChrono.StartUp.Precedence
import SerialChrono.License.Items

/-!
# From the options to the threads (`main.c`)

`mainStart` is `main` up to its loop: the options, the name of the client, the licence, and the
slots of the threads it creates.

A program needs a licence for a chronometer.  If it has no server it reads one from a file before
it creates a thread, and otherwise the thread that connects to the server asks there.  The name
`none` of no server is compared twice, and only once in any case: `mainStart_licensed_iff` says
which programs do neither.
-/

namespace SerialChrono

open CText

/-! ## The licence -/

/-- The digits of a number in base two that a text begins with. -/
def binNat (s : CString) : ℕ := Nat.ofDigitChars 2 (s.takeWhile fun c => c == '0' || c == '1') 0

/-- `strtol(s, NULL, 2)` -/
def strtolBinary (s : CString) : ℤ :=
  let n := match s.dropWhile isSpace with
    | '-' :: r => -(binNat r : ℤ)
    | '+' :: r => binNat r
    | r => binNat r
  max longMin (min longMax n)

/-- What main finds outside: the files it can read, the licence `readLicenseFromFile` gets from a
file, and whether it gets its socket. -/
structure Surroundings where
  /-- `file_exists` -/
  fileExists : CString → Bool
  license : CString → Option CString
  /-- `passiveUDP` -/
  socket : Bool

/-- The file of the licence: that of the options, the default one, or the one in the directory. -/
def findLicenseFile (s : Surroundings) (licenseFile : CString) : Option CString :=
  if s.fileExists licenseFile then some licenseFile
  else if s.fileExists licenseFileName then some licenseFileName
  else if s.fileExists "registration.info".toList then some "registration.info".toList
  else none

/-- `(license_options & 0x00000840L) != 0` -/
def chronoLicensed (licenseOptions : ℤ) : Bool :=
  BitVec.ofInt 64 licenseOptions &&& 0x840#64 ≠ 0#64

inductive LocalLicense
  | noFile
  | unreadable
  | noChrono
  | accepted (licenseFile : CString) (licenseOptions : ℤ)
  deriving DecidableEq, Repr

/-- The licence of a program without a server.  One that has no `options` is a null pointer for
`strtol`. -/
def localLicense (s : Surroundings) (o : Options) : Option LocalLicense := do
  match findLicenseFile s o.licenseFile with
  | none => return .noFile
  | some licenseFile =>
    match s.license licenseFile with
    | none => return .unreadable
    | some text =>
      let _serial ← getLicenseItem (some text) "serial".toList
      let _club ← getLicenseItem (some text) "club".toList
      let options ← (← getLicenseItem (some text) "options".toList)
      let licenseOptions := strtolBinary options
      if chronoLicensed licenseOptions then return .accepted licenseFile licenseOptions
      else return .noChrono

/-! ## The threads -/

/-- The function of a thread that main creates. -/
inductive ThreadFunction
  | consoleManagerThread
  | serialManagerThread
  | networkManagerThread
  | webManagerThread
  | ajaxManagerThread
  | qrcodeManagerThread
  deriving DecidableEq, Repr

/-- A program that has come to its loop. -/
structure Program where
  options : Options
  /-- The threads in `sc_threads`. -/
  threads : Fin 6 → Option ThreadFunction
  licenseOptions : ℤ

/-- `strcasecmp(a, b) == 0` -/
def strcasecmp (a b : CString) : Bool := toLower a == toLower b

/-- The slots main fills. -/
def createThreads (o : Options) : Fin 6 → Option ThreadFunction
  | 0 => if o.opmode &&& opmodeConsole ≠ 0 then some .consoleManagerThread else none
  | 1 =>
    -- a chronometer on the network takes the slot of the serial port
    if o.moduleName = "canometroweb".toList then some .networkManagerThread
    else if o.commPort.isSome then some .serialManagerThread
    else none
  | 2 => if o.webPort ≠ 0 then some .webManagerThread else none
  | 3 => if strcasecmp "none".toList o.ajaxServer then none else some .ajaxManagerThread
  | 4 => if strcasecmp o.qrcommPort "none".toList then none else some .qrcodeManagerThread
  | 5 => none

inductive MainStart
  | usage
  | cmdlineError
  | listPorts
  | noLicense (reason : LocalLicense)
  | noSocket
  | running (program : Program)

/-- The threads and the socket, after the licence. -/
def startThreads (s : Surroundings) (o : Options) (licenseOptions : ℤ) : MainStart :=
  if s.socket then .running ⟨o, createThreads o, licenseOptions⟩ else .noSocket

/-- `main`, up to its loop.  `file` is `serial_chrono.ini`. -/
def mainStart (file : Option (List Char)) (argv : List CString) (s : Surroundings) :
    Option MainStart := do
  match ← startOptions file argv with
  | .usage => return .usage
  | .error => return .cmdlineError
  | .options o =>
    let o := { o with clientName := fixClientName o.clientName }
    if o.listsPorts then return .listPorts
    if o.ajaxServer = "none".toList then
      match ← localLicense s o with
      | .accepted licenseFile licenseOptions =>
        return startThreads s { o with licenseFile } licenseOptions
      | reason => return .noLicense reason
    -- the thread of the server asks there
    else return startThreads s o 0

/-! ## Programs without a licence -/

/-- The program asks its server for the licence, or has read one that is for chronometers. -/
def Program.Licensed (p : Program) : Prop :=
  p.threads ⟨3, by decide⟩ = some .ajaxManagerThread ∨ chronoLicensed p.licenseOptions = true

instance (p : Program) : Decidable p.Licensed := inferInstanceAs (Decidable (_ ∨ _))

/-- A licence that is accepted is for chronometers. -/
lemma chronoLicensed_of_accepted {s : Surroundings} {o : Options} {licenseFile : CString}
    {licenseOptions : ℤ} (h : localLicense s o = some (.accepted licenseFile licenseOptions)) :
    chronoLicensed licenseOptions = true := by
  unfold localLicense at h
  split at h
  · cases h
  · split at h
    · cases h
    · obtain ⟨_, -, h⟩ := Option.bind_eq_some_iff.mp h
      obtain ⟨_, -, h⟩ := Option.bind_eq_some_iff.mp h
      obtain ⟨_, -, h⟩ := Option.bind_eq_some_iff.mp h
      obtain ⟨options, -, h⟩ := Option.bind_eq_some_iff.mp h
      dsimp only at h
      split_ifs at h with hchrono
      · cases h
        exact hchrono
      · cases h

lemma startThreads_eq_running {s : Surroundings} {o : Options} {licenseOptions : ℤ} {p : Program}
    (h : startThreads s o licenseOptions = .running p) :
    p = ⟨o, createThreads o, licenseOptions⟩ := by
  unfold startThreads at h
  split at h
  · exact (MainStart.running.inj h).symm
  · cases h

/-- How a program that runs has come to its licence. -/
lemma running_cases {file : Option (List Char)} {argv : List CString} {s : Surroundings}
    {p : Program} (h : mainStart file argv s = some (.running p)) :
    p.threads = createThreads p.options ∧
      (∃ o, startOptions file argv = some (.options o) ∧
        p.options.clientName = fixClientName o.clientName) ∧
      (p.options.ajaxServer = "none".toList ∧ chronoLicensed p.licenseOptions = true ∨
        p.options.ajaxServer ≠ "none".toList ∧ p.licenseOptions = 0) := by
  obtain ⟨cmdline, hcmdline, h⟩ := Option.bind_eq_some_iff.mp h
  cases cmdline with
  | usage => cases h
  | error => cases h
  | options o =>
    dsimp only at h
    split_ifs at h with hfind hnone
    · cases h
    · generalize hlicense : localLicense s _ = local_ at h
      cases local_ with
      | none => cases h
      | some license =>
        cases license with
        | accepted licenseFile licenseOptions =>
          obtain rfl := startThreads_eq_running (Option.some.inj h)
          exact ⟨rfl, ⟨o, hcmdline, rfl⟩, .inl ⟨hnone, chronoLicensed_of_accepted hlicense⟩⟩
        | noFile => cases h
        | unreadable => cases h
        | noChrono => cases h
    · obtain rfl := startThreads_eq_running (Option.some.inj h)
      exact ⟨rfl, ⟨o, hcmdline, rfl⟩, .inr ⟨hnone, rfl⟩⟩

/-- Every program that runs reads a licence for chronometers or has the thread that asks the server
for one, unless the name of its server is `none` with a capital letter. -/
theorem mainStart_licensed_iff {file : Option (List Char)} {argv : List CString} {s : Surroundings}
    {p : Program} (h : mainStart file argv s = some (.running p)) :
    p.Licensed ↔
      p.options.ajaxServer = "none".toList ∨ toLower p.options.ajaxServer ≠ "none".toList := by
  obtain ⟨hthreads, -, hlicense⟩ := running_cases h
  have hthread : p.threads ⟨3, by decide⟩ = some .ajaxManagerThread ↔
      toLower p.options.ajaxServer ≠ "none".toList := by
    rw [hthreads]
    unfold createThreads strcasecmp
    rw [show toLower "none".toList = "none".toList by decide]
    by_cases hlower : toLower p.options.ajaxServer = "none".toList
    · simp [hlower]
    · rw [beq_eq_false_iff_ne.mpr (Ne.symm hlower)]
      exact iff_of_true rfl hlower
  unfold Program.Licensed
  rw [hthread, or_comm]
  refine or_congr_left' fun _ => ?_
  rcases hlicense with ⟨hserver, hchrono⟩ | ⟨hserver, hzero⟩
  · exact iff_of_true hchrono hserver
  · rw [hzero]
    exact iff_of_false (by decide) hserver

theorem mainStart_licensed_capitals :
    ∃ p, mainStart none ["serial_chrono".toList, "-s".toList, "NONE".toList]
        ⟨fun _ => false, fun _ => none, true⟩ = some (.running p) ∧
      (p.Licensed ↔
        p.options.ajaxServer = "none".toList ∨ toLower p.options.ajaxServer ≠ "none".toList) := by
  let o : Options := { Options.default with ajaxServer := "NONE".toList }
  have hrunning : mainStart none ["serial_chrono".toList, "-s".toList, "NONE".toList]
      ⟨fun _ => false, fun _ => none, true⟩ = some (.running ⟨o, createThreads o, 0⟩) := by
    rfl
  exact ⟨_, hrunning, mainStart_licensed_iff hrunning⟩

end SerialChrono
