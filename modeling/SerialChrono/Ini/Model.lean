import Mathlib.Data.List.DropRight
import SerialChrono.Stdio

/-!
# The parser of configuration files (`ini.c`)

`ini_parse_stream` reads a stream in lines of at most 199 bytes.  A line is a comment, the head of
a section, a pair of a name and a value, or the continuation of the value before it; for each value
it calls the handler, and a line that is none of these is skipped.  It returns the number of the
first line that is malformed or whose value the handler has refused, and zero if there is none.

`parseIniLine` says what a line is, and `iniStep` is a turn of the loop.  The user data of the
handler has a type `U` here.  Line numbers are natural numbers: they are moved by one at a time.
-/

namespace SerialChrono

open CText StreamReader

/-! ## The line -/

/-- `rstrip` -/
def rstrip (s : CString) : CString := s.rdropWhile isSpace

/-- `lskip` -/
def lskip (s : CString) : CString := s.dropWhile isSpace

/-- `find_chars_or_comment`: the text before the place it finds, and the text from there on. -/
def findCharsOrComment (chars : List Char) : (wasSpace : Bool) → CString → CString × CString
  | _, [] => ([], [])
  | wasSpace, c :: s =>
    if c ∈ chars ∨ wasSpace = true ∧ c = ';' then ([], c :: s)
    else
      let (before, rest) := findCharsOrComment chars (isSpace c) s
      (c :: before, rest)

/-- `strncpy0` -/
def strncpy0 (src : CString) (size : ℕ) : CString := src.take (size - 1)

/-- The UTF-8 byte order mark. -/
def byteOrderMark : CString := ['\xef', '\xbb', '\xbf']

/-- `start`, and whether it is behind the beginning of the line.  The byte order mark is looked
for in the first line only. -/
def lineStart (first : Bool) (line : CString) : CString × Bool :=
  let marked := first && byteOrderMark.isPrefixOf line
  let text := rstrip (if marked then line.drop 3 else line)
  (lskip text, marked || lskip text != text)

/-- What a line is. -/
inductive IniLine
  /-- A comment, or blank. -/
  | comment
  | continuation (value : CString)
  | sectionHead (name : CString)
  | pair (name value : CString)
  | malformed
  deriving DecidableEq, Repr

/-- The tests of the loop on a line, in their order. -/
def parseStart (prevName start : CString) (moved : Bool) : IniLine :=
  match start with
  | [] => .comment
  | c :: rest =>
    if c = ';' ∨ c = '#' then .comment
    else if prevName ≠ [] ∧ moved = true then .continuation start
    else if c = '[' then
      match findCharsOrComment [']'] false rest with
      | (name, ']' :: _) => .sectionHead name
      | _ => .malformed
    else
      match findCharsOrComment ['=', ':'] false start with
      | (name, '=' :: value) | (name, ':' :: value) =>
        .pair (rstrip name) (rstrip (lskip (findCharsOrComment [] false value).1))
      | _ => .malformed

def parseIniLine (first : Bool) (prevName line : CString) : IniLine :=
  let (start, moved) := lineStart first line
  parseStart prevName start moved

/-! ## The loop -/

/-- The variables of `ini_parse_stream` and the data of the handler. -/
structure IniState (U : Type) where
  /-- `section` -/
  sectionName : CString
  prevName : CString
  lineno : ℕ
  error : ℕ
  user : U
  deriving DecidableEq, Repr

/-- A handler: what it makes of the user data for a section, a name and a value, and whether it
accepts them. -/
abbrev IniHandler (U : Type) := U → (sectionName name value : CString) → U × Bool

section

variable {U : Type}

def IniState.start (user : U) : IniState U := ⟨[], [], 0, 0, user⟩

/-- The first error is kept. -/
def IniState.check (s : IniState U) (ok : Bool) : IniState U :=
  if ok = false ∧ s.error = 0 then { s with error := s.lineno } else s

def IniState.call (handler : IniHandler U) (s : IniState U) (name value : CString) : IniState U :=
  let (user, ok) := handler s.user s.sectionName name value
  { s with user }.check ok

/-- What is done for a line. -/
def IniState.handle (handler : IniHandler U) (s : IniState U) : IniLine → IniState U
  | .comment => s
  | .continuation value => s.call handler s.prevName value
  | .sectionHead name => { s with sectionName := strncpy0 name 50, prevName := [] }
  | .pair name value => { s with prevName := strncpy0 name 50 }.call handler name value
  | .malformed => s.check false

/-- The next line is read. -/
def IniState.advance (s : IniState U) : IniState U := { s with lineno := s.lineno + 1 }

/-- A turn of the loop, for the bytes in `line`. -/
def iniStep (handler : IniHandler U) (s : IniState U) (bytes : List Char) : IniState U :=
  let s := s.advance
  s.handle handler (parseIniLine (s.lineno = 1) s.prevName (cstr bytes))

/-- `ini_parse_stream`, if the stream ends within `fuel` turns: what it returns, and the user
data. -/
def iniParseStream {S : Type} (reader : ℕ → S → Option (List Char × S)) (handler : IniHandler U)
    (fuel : ℕ) (stream : S) (user : U) : Option (ℕ × U) :=
  (drain (reader 200) (iniStep handler) fuel stream (.start user)).map fun s => (s.error, s.user)

/-- `ini_parse_file` -/
def iniParseFile (handler : IniHandler U) (file : List Char) (user : U) : Option (ℕ × U) :=
  iniParseStream fgets handler (file.length + 1) file user

/-- `ini_parse`, for the content of the file if it can be opened. -/
def iniParse (handler : IniHandler U) (file : Option (List Char)) (user : U) : Option (ℤ × U) :=
  match file with
  | none => some (-1, user)
  | some file => (iniParseFile handler file user).map fun r => (r.1, r.2)

/-! ## Strings -/

/-- The loop of `ini_reader_string`. -/
def copyLine : (num : ℕ) → List Char → List Char × List Char
  | num, c :: ctx =>
    if 1 < num then
      if c = '\n' then ([c], ctx)
      else
        let (str, ctx) := copyLine (num - 1) ctx
        (c :: str, ctx)
    else ([], c :: ctx)
  | _, [] => ([], [])

/-- `ini_reader_string` -/
def iniReaderString (num : ℕ) (ctx : List Char) : Option (List Char × List Char) :=
  if ctx = [] ∨ num < 2 then none else some (copyLine num ctx)

/-- `ini_parse_string` -/
def iniParseString (handler : IniHandler U) (string : CString) (user : U) : Option (ℕ × U) :=
  iniParseStream iniReaderString handler (string.length + 1) string user

end

end SerialChrono
