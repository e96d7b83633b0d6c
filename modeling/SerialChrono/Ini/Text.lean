import SerialChrono.Ini.Events

/-!
# Written configuration files (`ini.c`)

An `IniDocument` is a file as it is written by hand: notes, heads of sections, pairs, and further
lines for the value of a pair, each with the blanks and remarks around it that the format allows.
`iniParseFile_text` says that the parser finds what has been written, and nothing else: the layout
has no influence, and no line is malformed.

The places where the format is narrower than it looks are fields of the items.  A remark behind a
value needs a blank before it, and therefore a value cannot contain a semicolon behind a blank; a
pair must not be indented, because it would continue the value before it; and every line, with its
newline, has to fit into the 199 bytes `fgets` reads.
-/

namespace SerialChrono

open CText StreamReader

/-! ## Texts -/

/-- Blanks within a line. -/
def Blanks (s : CString) : Prop := ∀ c ∈ s, isSpace c = true ∧ c ≠ '\n'

instance (s : CString) : Decidable (Blanks s) :=
  decidable_of_iff ((s.all fun c => isSpace c && c != '\n') = true) <| by simp [Blanks]

def OneLine (s : CString) : Prop := '\n' ∉ s ∧ '\x00' ∉ s

instance (s : CString) : Decidable (OneLine s) := inferInstanceAs (Decidable (_ ∧ _))

/-- There are no blanks at the ends. -/
def Trimmed (s : CString) : Prop :=
  (∀ c ∈ s.head?, isSpace c = false) ∧ ∀ c ∈ s.getLast?, isSpace c = false

instance (s : CString) : Decidable (Trimmed s) :=
  decidable_of_iff ((s.head?.all fun c => !isSpace c) = true ∧
      (s.getLast?.all fun c => !isSpace c) = true) <| by
    simp [Trimmed, Option.all_eq_true]

/-- No semicolon is behind a blank. -/
def NoRemark (s : CString) : Prop := ∀ c, isSpace c = true → ¬ [c, ';'] <:+: s

/-- What `section` and `prev_name` have room for. -/
def iniRoom (name : CString) : CString := name.take 49

/-! ## Items -/

/-- A blank line or a comment. -/
structure IniNote where
  indent : CString
  comment : CString
  indent_blanks : Blanks indent
  comment_oneLine : OneLine comment
  comment_first : ∀ c ∈ comment.head?, c = ';' ∨ c = '#'

/-- The head of a section. -/
structure IniHead where
  name : CString
  /-- What is behind the bracket. -/
  rest : CString
  name_oneLine : OneLine name
  name_closed : ']' ∉ name
  name_noRemark : NoRemark name
  rest_oneLine : OneLine rest

/-- A name and a value. -/
structure IniPair where
  name : CString
  value : CString
  /-- The blanks before and after the separator. -/
  before : CString
  separator : Char
  after : CString
  /-- The blanks behind the value. -/
  gap : CString
  remark : Option CString
  name_ne_nil : name ≠ []
  name_oneLine : OneLine name
  name_trimmed : Trimmed name
  name_first : ∀ c ∈ name.head?, c ≠ ';' ∧ c ≠ '#' ∧ c ≠ '['
  name_noSeparator : ∀ c ∈ name, c ≠ '=' ∧ c ≠ ':'
  name_noRemark : NoRemark name
  name_noMark : ¬ byteOrderMark <+: name
  value_oneLine : OneLine value
  value_trimmed : Trimmed value
  value_noRemark : NoRemark value
  before_blanks : Blanks before
  isSeparator : separator = '=' ∨ separator = ':'
  after_blanks : Blanks after
  after_eq_nil : value.head? = some ';' → after = []
  gap_blanks : Blanks gap
  gap_ne_nil : remark ≠ none → gap ≠ []
  remark_oneLine : ∀ r ∈ remark, OneLine r

/-- One more line of a value. -/
structure IniMore where
  indent : CString
  value : CString
  gap : CString
  indent_ne_nil : indent ≠ []
  indent_blanks : Blanks indent
  value_ne_nil : value ≠ []
  value_oneLine : OneLine value
  value_trimmed : Trimmed value
  value_first : ∀ c ∈ value.head?, c ≠ ';' ∧ c ≠ '#'
  gap_blanks : Blanks gap

inductive IniItem
  | note (n : IniNote)
  | head (h : IniHead)
  | pair (p : IniPair)
  | more (m : IniMore)

/-- What is behind a value. -/
def remarkText (remark : Option CString) : CString := (remark.map fun r => ';' :: r).getD []

/-- The line of an item, without its newline. -/
def IniItem.text : IniItem → CString
  | .note n => n.indent ++ n.comment
  | .head h => '[' :: (h.name ++ ']' :: h.rest)
  | .pair p =>
    p.name ++ (p.before ++ p.separator :: (p.after ++ (p.value ++ (p.gap ++ remarkText p.remark))))
  | .more m => m.indent ++ (m.value ++ m.gap)

/-! ## Documents -/

/-- Whether a further line of a value can come after an item. -/
def IniItem.continues (open_ : Bool) : IniItem → Bool
  | .note _ => open_
  | .head _ => false
  | .pair _ | .more _ => true

/-- Further lines stand behind a pair of the same section. -/
def Continued : (open_ : Bool) → List IniItem → Prop
  | _, [] => True
  | open_, item :: items =>
    (∀ m, item = .more m → open_ = true) ∧ Continued (item.continues open_) items

/-- The first line may have a byte order mark before it. -/
def markFirst : (mark : Bool) → List CString → List CString
  | true, line :: lines => (byteOrderMark ++ line) :: lines
  | _, lines => lines

structure IniDocument where
  mark : Bool
  items : List IniItem
  continued : Continued false items
  fits : ∀ line ∈ markFirst mark (items.map IniItem.text), line.length ≤ 198

def IniDocument.lines (doc : IniDocument) : List CString :=
  markFirst doc.mark (doc.items.map IniItem.text)

def IniDocument.text (doc : IniDocument) : List Char := doc.lines.flatMap (· ++ ['\n'])

/-- The values of some items, each with the number of its line, the section it is in and its
name. -/
def itemEvents : (sectionName prevName : CString) → (lineno : ℕ) → List IniItem →
    List (ℕ × IniEvent)
  | _, _, _, [] => []
  | sectionName, prevName, n, .note _ :: items => itemEvents sectionName prevName (n + 1) items
  | _, _, n, .head h :: items => itemEvents (iniRoom h.name) [] (n + 1) items
  | sectionName, _, n, .pair p :: items =>
    (n + 1, .call sectionName p.name p.value) ::
      itemEvents sectionName (iniRoom p.name) (n + 1) items
  | sectionName, prevName, n, .more m :: items =>
    (n + 1, .call sectionName prevName m.value) :: itemEvents sectionName prevName (n + 1) items

def IniDocument.events (doc : IniDocument) : List (ℕ × IniEvent) := itemEvents [] [] 0 doc.items

end SerialChrono
