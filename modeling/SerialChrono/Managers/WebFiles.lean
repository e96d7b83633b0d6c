import SerialChrono.Library.FileTree
import SerialChrono.Tools

/-!
# The files of the web server (`web_server.c`)

A request for a path that is no service is answered with a file: `default_service` puts the path
behind the working directory and `/html`, and opens what it gets.  Nothing looks at the path before
that.  One that does not climb stays inside the directory of the pages (`defaultService_inside`),
but there is a path to every file the program can read (`defaultService_sends`).
-/

namespace SerialChrono

open CText FileTree

/-! ## Names and paths -/

/-- The name of a file in a directory. -/
structure FileName where
  text : CString
  slash : '/' ∉ text
  proper : text ≠ [] ∧ text ≠ ".".toList ∧ text ≠ "..".toList
  deriving DecidableEq

/-- What stands between two slashes. -/
def component (text : CString) (hslash : '/' ∉ text) : Component FileName :=
  if hhere : text = [] ∨ text = ".".toList then .here
  else if hup : text = "..".toList then .up
  else .into ⟨text, hslash, fun h => hhere (.inl h), fun h => hhere (.inr h), hup⟩

def components (path : CString) : List (Component FileName) :=
  (path.splitOn '/').pmap component separator_notMem_splitOn

/-- The path of a place, empty for the root. -/
def placePath : Place FileName → CString
  | [] => []
  | n :: p => placePath p ++ '/' :: n.text

/-- `getcwd` -/
def getcwd (p : Place FileName) : CString := if p = [] then "/".toList else placePath p

/-- The directory of the pages. -/
def htmlName : FileName := ⟨"html".toList, by decide, by decide⟩

/-! ## The service -/

/-- The `Content-Type` of a file; the marks are looked for in the whole line. -/
def contentType (line : CString) : CString :=
  if strstr line ".json".toList then "application/json".toList
  else if strstr line ".js".toList then "text/javascript".toList
  else if strstr line ".css".toList then "text/css".toList
  else if strstr line ".png".toList then "image/png".toList
  else if strstr line ".jpg".toList then "image/jpeg".toList
  else if strstr line ".txt".toList then "text/plain".toList
  else "text/html".toList

inductive FileReply (β : Type*)
  | notFound (line : CString)
  | ok (contentType : CString) (content : β)
  deriving DecidableEq

variable {β : Type*}

/-- `default_service`.  The files are those the program can read, without links; a path that does
not fit `line` is written past its end. -/
def defaultService (files : Tree FileName β) (cwd : Place FileName) (path : CString) :
    Option (FileReply β) :=
  let line := getcwd cwd ++ "/html".toList ++ path
  if line.length < 1024 then
    match files.read [] (components line) with
    | some content => some (.ok (contentType line) content)
    | none => some (.notFound line)
  else none

/-! ## The components of a line -/

lemma components_append (a b : CString) :
    components (a ++ '/' :: b) = components a ++ components b := by
  unfold components
  simp only [List.splitOn_append_cons_self, List.pmap_append]

lemma components_of_proper (n : FileName) : components n.text = [.into n] := by
  have hsplit : n.text.splitOn '/' = [n.text] := List.splitOn_eq_singleton n.slash
  have hcomponent : component n.text n.slash = .into n := by
    unfold component
    rw [dif_neg (by simpa using ⟨n.proper.1, n.proper.2.1⟩), dif_neg n.proper.2.2]
  unfold components
  simp only [hsplit, List.pmap_cons, List.pmap_nil, hcomponent]

lemma components_append_placePath (a : CString) (p : Place FileName) :
    components (a ++ placePath p) = components a ++ p.reverse.map .into := by
  induction p with
  | nil => simp [placePath]
  | cons n p ih =>
    rw [placePath, ← List.append_assoc, components_append, ih, components_of_proper,
      List.reverse_cons, List.map_append, List.append_assoc]
    rfl

/-- As many steps up. -/
def upPath (k : ℕ) : CString := (List.replicate k "/..".toList).flatten

lemma components_append_upPath (a : CString) (k : ℕ) :
    components (a ++ upPath k) = components a ++ List.replicate k .up := by
  induction k with
  | zero => simp [upPath]
  | succ k ih =>
    have hlast : upPath (k + 1) = upPath k ++ '/' :: "..".toList := by
      rw [upPath, List.replicate_succ', List.flatten_append]
      rfl
    have hup : components "..".toList = [.up] := by decide
    rw [hlast, ← List.append_assoc, components_append, ih, hup, List.replicate_succ',
      List.append_assoc]

/-- The working directory leads to itself. -/
lemma walk_getcwd {files : Tree FileName β} {cwd : Place FileName}
    (hcwd : files.entry cwd = some .directory) :
    files.walk [] (components (getcwd cwd)) = some cwd := by
  have hhere : ∀ p, files.entry p = some .directory → files.follow p .here = some p := fun p hp =>
    Tree.follow_of_isSome hp (by rw [Component.target, hp]; rfl)
  unfold getcwd
  split_ifs with hroot
  · have hslash : components "/".toList = [.here, .here] := by decide
    rw [hslash, Tree.walk_cons_of_follow (hhere [] files.root),
      Tree.walk_cons_of_follow (hhere [] files.root), hroot]
    rfl
  · have hpath := components_append_placePath [] cwd
    have hempty : components [] = [.here] := by decide
    rw [List.nil_append, hempty, List.singleton_append] at hpath
    rw [hpath, Tree.walk_cons_of_follow (hhere [] files.root), Tree.walk_into]
    · simp
    · simp [hcwd]

/-- A line leads where the path leads from the directory of the pages. -/
lemma walk_line {files : Tree FileName β} {cwd : Place FileName}
    (hhtml : files.entry (htmlName :: cwd) = some .directory) (path : CString) :
    files.walk [] (components (getcwd cwd ++ "/html".toList ++ '/' :: path)) =
      files.walk (htmlName :: cwd) (components path) := by
  have hcwd : files.entry cwd = some .directory := files.above (by rw [hhtml]; rfl)
  have hinto : files.follow cwd (.into htmlName) = some (htmlName :: cwd) :=
    Tree.follow_of_isSome hcwd (by rw [Component.target, hhtml]; rfl)
  have hname : components "html".toList = [.into htmlName] := components_of_proper htmlName
  have hline : components (getcwd cwd ++ "/html".toList ++ '/' :: path) =
      components (getcwd cwd) ++ .into htmlName :: components path := by
    rw [components_append, show "/html".toList = '/' :: "html".toList from rfl, components_append,
      hname, List.append_assoc, List.singleton_append]
  rw [hline, Tree.walk_append (walk_getcwd hcwd), Tree.walk_cons_of_follow hinto]

/-! ## What is sent -/

lemma read_of_defaultService {files : Tree FileName β} {cwd : Place FileName} {path ct : CString}
    {content : β} (h : defaultService files cwd path = some (.ok ct content)) :
    files.read [] (components (getcwd cwd ++ "/html".toList ++ path)) = some content := by
  unfold defaultService at h
  dsimp only at h
  split_ifs at h
  split at h
  · next content' hread =>
    cases h
    exact hread
  · cases h

/-- A path that does not climb above the directory of the pages is answered with a file in it, if
with any. -/
theorem defaultService_inside {files : Tree FileName β} {cwd : Place FileName}
    (hhtml : files.entry (htmlName :: cwd) = some .directory) {path ct : CString} {content : β}
    (hstays : StaysBelow 0 (components path))
    (h : defaultService files cwd ('/' :: path) = some (.ok ct content)) :
    ∃ below, files.entry (below ++ htmlName :: cwd) = some (.file content) := by
  obtain ⟨q, hwalk, hfile⟩ := Tree.read_eq_some (read_of_defaultService h)
  rw [walk_line hhtml] at hwalk
  obtain ⟨below, rfl⟩ := Tree.walk_inside (htmlName :: cwd) [] hstays hwalk
  exact ⟨below, hfile⟩

/-- A directory of the program with a page and its configuration file. -/
def programName : FileName := ⟨"chrono".toList, by decide, by decide⟩

def pageName : FileName := ⟨"index.html".toList, by decide, by decide⟩

def iniName : FileName := ⟨"serial_chrono.ini".toList, by decide, by decide⟩

def programFiles : Tree FileName ℕ where
  entry p :=
    if p ∈ [[], [programName], [htmlName, programName]] then some .directory
    else if p = [pageName, htmlName, programName] then some (.file 1)
    else if p = [iniName, programName] then some (.file 2)
    else none
  root := rfl
  above {n p} h := by
    have hall : n :: p ∈ [[programName], [htmlName, programName],
        [pageName, htmlName, programName], [iniName, programName]] := by
      split_ifs at h with hdirectory hpage hini
      · simp at hdirectory ⊢
        tauto
      · simp [hpage]
      · simp [hini]
      · cases h
    simp only [List.mem_cons, List.cons.injEq, List.not_mem_nil, or_false] at hall
    rcases hall with ⟨-, rfl⟩ | ⟨-, rfl⟩ | ⟨-, rfl⟩ | ⟨-, rfl⟩ <;> exact if_pos (by decide)

theorem defaultService_inside_page :
    ∃ below, programFiles.entry (below ++ [htmlName, programName]) = some (.file 1) := by
  have hstays : StaysBelow 0 (components "index.html".toList) := by
    rw [show "index.html".toList = pageName.text from rfl, components_of_proper]
    trivial
  have hreply : defaultService programFiles [programName] "/index.html".toList =
      some (.ok "text/html".toList 1) := by decide +kernel
  exact defaultService_inside rfl hstays hreply

/-- Wherever a file is that the program can read, some request is answered with it: the directory of
the pages is left by as many steps up as it is deep. -/
theorem defaultService_sends {files : Tree FileName β} {cwd q : Place FileName}
    (hhtml : files.entry (htmlName :: cwd) = some .directory) {content : β}
    (hfile : files.entry q = some (.file content))
    (hfits : (getcwd cwd ++ "/html".toList ++ (upPath (cwd.length + 1) ++ placePath q)).length <
      1024) :
    ∃ ct, defaultService files cwd (upPath (cwd.length + 1) ++ placePath q) =
      some (.ok ct content) := by
  set path := "..".toList ++ upPath cwd.length ++ placePath q with hpath
  have hup : upPath (cwd.length + 1) ++ placePath q = '/' :: path := by
    rw [upPath, List.replicate_succ, List.flatten_cons, ← upPath, hpath]
    rfl
  have hcomponents : components path =
      List.replicate (cwd.length + 1) .up ++ q.reverse.map .into := by
    have hdots : components "..".toList = [.up] := by decide
    rw [hpath, components_append_placePath, components_append_upPath, hdots, List.replicate_succ]
    rfl
  have hwalk :
      files.walk [] (components (getcwd cwd ++ "/html".toList ++ '/' :: path)) = some q := by
    rw [walk_line hhtml, hcomponents]
    exact Tree.walk_reaches hhtml (le_refl _) (by rw [hfile]; rfl)
  rw [hup] at hfits ⊢
  unfold defaultService
  rw [if_pos hfits, Tree.read_of_walk hwalk hfile]
  exact ⟨_, rfl⟩

theorem defaultService_sends_ini :
    ∃ ct, defaultService programFiles [programName]
      (upPath 2 ++ "/chrono/serial_chrono.ini".toList) = some (.ok ct 2) :=
  @defaultService_sends ℕ programFiles [programName] [iniName, programName] rfl 2 rfl
    (by decide +kernel)

end SerialChrono
