import SerialChrono.Library.CText

/-!
# Configuration and chronometer status (`sc_config.h`, `sc_config.c`)

`Status` is `sc_data_t`, the state of the run and of the competitor that every manager reads
and the main thread writes.  `Configuration` keeps the fields of `configuration` that the
program reads after start-up; the paths, ports and logging options that only the command line
and the log use are left out.  An `int` or `long` field is an integer of ℤ: texts are converted
by `atoi` and `strtol`, which do clamp or wrap, while the counters themselves are moved by one
at a time and C gives no meaning to their overflow.
-/

namespace SerialChrono

open CText

/-- The values of an `int`. -/
def IsInt (x : ℤ) : Prop := -2 ^ 31 ≤ x ∧ x < 2 ^ 31

instance (x : ℤ) : Decidable (IsInt x) := inferInstanceAs (Decidable (_ ∧ _))

lemma IsInt.length_printInt {x : ℤ} (hx : IsInt x) : (printInt x).length ≤ 11 := by
  obtain ⟨hlo, hhi⟩ := hx
  exact CText.length_printInt (by omega) (by omega)

/-- `sc_data_t`. -/
structure Status where
  /-- Timestamp of the start, negative while the chronometer is not running. -/
  startTime : ℤ
  stopTime : ℤ
  intTime : ℤ
  faults : ℤ
  touchs : ℤ
  refusals : ℤ
  eliminated : ℤ
  notpresent : ℤ
  numero : ℤ
  dorsal : ℤ
  perro : ℤ
  equipo : ℤ
  sessionID : ℤ
  prueba : ℤ
  jornada : ℤ
  manga : ℤ
  tanda : ℤ
  deriving DecidableEq, Repr

/-- The part of `configuration` the running program uses. -/
structure Configuration where
  ajaxServer : CString
  clientName : CString
  ring : ℤ
  bright : ℤ
  status : Status
  deriving DecidableEq, Repr

/-- `default_options`: what it does not set is zero from `calloc`. -/
def defaultOptions : Configuration where
  ajaxServer := "localhost".toList
  clientName := "generic".toList
  ring := 1
  bright := 0
  status :=
    { startTime := -1, stopTime := 0, intTime := 0
      faults := 0, touchs := 0, refusals := 0, eliminated := 0, notpresent := 0
      numero := 0, dorsal := 0, perro := 0, equipo := 0
      sessionID := 0, prueba := 0, jornada := 0, manga := 0, tanda := 0 }

/-- `getSessionName`: `chrono:<session>:0:0:<client name>`, at most 1023 characters of it. -/
def getSessionName (config : Configuration) : CString :=
  ("chrono:".toList ++ printInt config.status.sessionID ++ ":0:0:".toList ++
    config.clientName).take 1023

/-- The fields the name of the session is made of are the same. -/
structure Configuration.SameSession (config config' : Configuration) : Prop where
  sessionID : config'.status.sessionID = config.status.sessionID
  clientName : config'.clientName = config.clientName

namespace Configuration.SameSession

variable {config config' config'' : Configuration}

lemma refl (config : Configuration) : config.SameSession config := ⟨rfl, rfl⟩

lemma trans (h : config.SameSession config') (h' : config'.SameSession config'') :
    config.SameSession config'' :=
  ⟨h'.sessionID.trans h.sessionID, h'.clientName.trans h.clientName⟩

lemma getSessionName_eq (h : config.SameSession config') :
    getSessionName config' = getSessionName config := by
  unfold getSessionName
  rw [h.sessionID, h.clientName]

end Configuration.SameSession

end SerialChrono
