import SerialChrono.Ini.Model

/-!
# What the parser does with a file, whatever the handler (`ini.c`)

The sections, names and values that a file consists of do not depend on what the handler answers,
because the parser does not stop at an error.  `iniEvents` reads them off the lines of the file
without a handler: the calls that are made and the malformed lines, with their line numbers.
`replay` is what a handler makes of them.  `iniParseFile_eq_replay` says that the two together are
`ini_parse_file`, so that a malformed line has no effect but on the number that is returned.
-/

namespace SerialChrono

open CText StreamReader

/-! ## The events of a file -/

inductive IniEvent
  | call (sectionName name value : CString)
  | malformed
  deriving DecidableEq, Repr

/-- The variables of the loop that a handler has no influence on. -/
structure IniPlace where
  sectionName : CString
  prevName : CString
  lineno : ℕ
  deriving DecidableEq, Repr

def IniPlace.start : IniPlace := ⟨[], [], 0⟩

/-- The next line is read. -/
def IniPlace.advance (p : IniPlace) : IniPlace := { p with lineno := p.lineno + 1 }

def IniPlace.parse (p : IniPlace) (bytes : List Char) : IniLine :=
  parseIniLine (p.lineno = 1) p.prevName (cstr bytes)

/-- The place after a line. -/
def IniPlace.after (p : IniPlace) : IniLine → IniPlace
  | .sectionHead name => { p with sectionName := strncpy0 name 50, prevName := [] }
  | .pair name _ => { p with prevName := strncpy0 name 50 }
  | .comment | .continuation _ | .malformed => p

/-- What a line gives rise to. -/
def IniPlace.event (p : IniPlace) : IniLine → Option IniEvent
  | .continuation value => some (.call p.sectionName p.prevName value)
  | .pair name value => some (.call p.sectionName name value)
  | .malformed => some .malformed
  | .comment | .sectionHead _ => none

/-- The events of the lines from a place on, with their line numbers. -/
def IniPlace.events : IniPlace → List (List Char) → List (ℕ × IniEvent)
  | _, [] => []
  | p, bytes :: lines =>
    let p := p.advance
    let line := p.parse bytes
    ((p.event line).map fun e => (p.lineno, e)).toList ++ (p.after line).events lines

/-- The lines of a file. -/
def iniLines (file : List Char) : List (List Char) :=
  (drain (fgets 200) (fun lines line => lines ++ [line]) (file.length + 1) file []).getD []

def iniEvents (file : List Char) : List (ℕ × IniEvent) := IniPlace.start.events (iniLines file)

/-! ## What a handler makes of them -/

section

variable {U : Type} (handler : IniHandler U)

/-- The user data after an event. -/
def IniEvent.apply (user : U) : IniEvent → U
  | .call sectionName name value => (handler user sectionName name value).1
  | .malformed => user

/-- A malformed line, or a value that is refused. -/
def IniEvent.fails (user : U) : IniEvent → Bool
  | .call sectionName name value => !(handler user sectionName name value).2
  | .malformed => true

/-- The number of the first line that fails, zero if there is none. -/
def firstFailure : U → List (ℕ × IniEvent) → ℕ
  | _, [] => 0
  | user, (lineno, e) :: events =>
    if e.fails handler user then lineno else firstFailure (e.apply handler user) events

/-- The result of the handler on all the events of a file. -/
def replay (user : U) (events : List (ℕ × IniEvent)) : ℕ × U :=
  (firstFailure handler user events, events.foldl (fun user e => e.2.apply handler user) user)

/-! ## The loop -/

/-- The part of the loop's state that is a place. -/
def IniState.place (s : IniState U) : IniPlace := ⟨s.sectionName, s.prevName, s.lineno⟩

@[simp] lemma IniState.place_check (s : IniState U) (ok : Bool) : (s.check ok).place = s.place := by
  unfold IniState.check
  split_ifs <;> rfl

@[simp] lemma IniState.user_check (s : IniState U) (ok : Bool) : (s.check ok).user = s.user := by
  unfold IniState.check
  split_ifs <;> rfl

lemma IniState.error_check (s : IniState U) (ok : Bool) :
    (s.check ok).error = if ok = false ∧ s.error = 0 then s.lineno else s.error := by
  unfold IniState.check
  split_ifs <;> rfl

/-- The place moves as it would without a handler. -/
lemma place_handle (s : IniState U) (line : IniLine) :
    (s.handle handler line).place = s.place.after line := by
  cases line <;> first | rfl | exact IniState.place_check _ _

/-- The event of the line is applied. -/
lemma user_handle (s : IniState U) (line : IniLine) :
    (s.handle handler line).user =
      ((s.place.event line).map (IniEvent.apply handler s.user)).getD s.user := by
  cases line <;> first | rfl | exact IniState.user_check _ _

/-- The number of the line is kept as the error if it is the first that fails. -/
lemma error_handle (s : IniState U) (line : IniLine) :
    (s.handle handler line).error =
      if (s.place.event line).any (IniEvent.fails handler s.user) ∧ s.error = 0 then s.lineno
      else s.error := by
  cases line with
  | comment | sectionHead => rfl
  | malformed => simp [IniState.handle, IniState.error_check, IniPlace.event, IniEvent.fails]
  | continuation | pair =>
    simp [IniState.handle, IniState.call, IniState.error_check, IniPlace.event, IniEvent.fails,
      IniState.place]

@[simp] lemma IniState.place_advance (s : IniState U) : s.advance.place = s.place.advance := rfl

@[simp] lemma IniState.user_advance (s : IniState U) : s.advance.user = s.user := rfl

@[simp] lemma IniState.error_advance (s : IniState U) : s.advance.error = s.error := rfl

lemma iniStep_eq (s : IniState U) (bytes : List Char) :
    iniStep handler s bytes = s.advance.handle handler (s.place.advance.parse bytes) := rfl

/-! ## The run -/

/-- The user data after some lines. -/
lemma user_foldl_iniStep (lines : List (List Char)) (s : IniState U) :
    (lines.foldl (iniStep handler) s).user =
      (s.place.events lines).foldl (fun user e => e.2.apply handler user) s.user := by
  induction lines generalizing s with
  | nil => rfl
  | cons bytes lines ih =>
    rw [List.foldl_cons, ih, iniStep_eq, place_handle, user_handle, IniPlace.events,
      List.foldl_append, IniState.place_advance, IniState.user_advance]
    congr 1
    cases s.place.advance.event (s.place.advance.parse bytes) <;> rfl

/-- The error after some lines: the one there was before, or the first failure among them. -/
lemma error_foldl_iniStep (lines : List (List Char)) (s : IniState U) :
    (lines.foldl (iniStep handler) s).error =
      if s.error = 0 then firstFailure handler s.user (s.place.events lines) else s.error := by
  induction lines generalizing s with
  | nil =>
    split_ifs with hs
    · exact hs
    · rfl
  | cons bytes lines ih =>
    rw [List.foldl_cons, ih, iniStep_eq, place_handle, user_handle, error_handle, IniPlace.events,
      IniState.place_advance, IniState.user_advance, IniState.error_advance]
    cases s.place.advance.event (s.place.advance.parse bytes) with
    | none => simp
    | some e =>
      by_cases hs : s.error = 0 <;> by_cases hfails : e.fails handler s.user <;>
        simp [hs, hfails, firstFailure, IniState.advance, IniState.place, IniPlace.advance]

/-- The file is read in its lines to its end. -/
lemma reads_iniLines (file : List Char) :
    Reads (fgets 200) file (iniLines file) ∧ (iniLines file).length ≤ file.length := by
  obtain ⟨lines, hreads, hlength⟩ :=
    exists_reads List.length (length_rest_of_fgets (by decide : 2 ≤ 200)) file
  have hlines : iniLines file = lines := by
    rw [iniLines, hreads.drain _ (Nat.lt_succ_of_le hlength), Option.getD_some,
      List.foldl_append_eq_append, ← List.flatMap_def, List.nil_append]
    exact List.flatMap_singleton' lines
  rw [hlines]
  exact ⟨hreads, hlength⟩

/-- The loop ends at the end of the file, with what the handler makes of its lines. -/
lemma iniParseFile_of_reads {file : List Char} {lines : List (List Char)}
    (hreads : Reads (fgets 200) file lines) (user : U) :
    iniParseFile handler file user = some (replay handler user (IniPlace.start.events lines)) := by
  obtain ⟨hfile, hlength⟩ := reads_iniLines file
  rw [hreads.unique hfile, iniParseFile, iniParseStream,
    hfile.drain _ (Nat.lt_succ_of_le hlength), Option.map_some, user_foldl_iniStep,
    error_foldl_iniStep]
  rfl

end

/-- The calls that are made do not depend on the handler, and no error keeps a line from being
read; the number returned is that of the first line that fails. -/
theorem iniParseFile_eq_replay {U : Type} (handler : IniHandler U) (file : List Char) (user : U) :
    iniParseFile handler file user = some (replay handler user (iniEvents file)) :=
  iniParseFile_of_reads handler (reads_iniLines file).1 user

/-! ## Strings -/

/-- The loop takes as much off the string as `fgets` would. -/
lemma copyLine_eq (num : ℕ) (ctx : List Char) :
    copyLine num ctx =
      let length := min (num - 1) ((ctx.takeWhile (· ≠ '\n')).length + 1)
      (ctx.take length, ctx.drop length) := by
  induction ctx generalizing num with
  | nil => simp [copyLine]
  | cons c ctx ih =>
    unfold copyLine
    by_cases hnum : 1 < num
    · obtain ⟨n, rfl⟩ := Nat.exists_eq_add_of_le' hnum
      by_cases hc : c = '\n'
      · simp [hc]
      · simp [hc, ih, Nat.add_min_add_right]
    · have hzero : num - 1 = 0 := by omega
      simp [hnum, hzero]

lemma iniReaderString_eq_fgets {num : ℕ} (hnum : 2 ≤ num) : iniReaderString num = fgets num := by
  funext ctx
  unfold iniReaderString fgets
  by_cases hctx : ctx = []
  · simp [hctx]
  · rw [if_neg (by simp only [hctx, false_or]; omega), if_neg hctx, copyLine_eq]

/-- A text in memory is parsed as a file with the same bytes. -/
theorem iniParseString_eq_iniParseFile {U : Type} (handler : IniHandler U) (string : CString)
    (user : U) : iniParseString handler string user = iniParseFile handler string user := by
  unfold iniParseString iniParseFile iniParseStream
  rw [iniReaderString_eq_fgets (by decide)]

end SerialChrono
